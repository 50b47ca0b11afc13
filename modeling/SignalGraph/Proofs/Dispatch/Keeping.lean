import SignalGraph.Operation
import SignalGraph.Proofs.Arrays
import SignalGraph.Proofs.Dispatch.Chains
import SignalGraph.Proofs.Graph.Construction

namespace SignalGraph

open Build

variable {α β γ : Type} {allowed : Element α → Prop}

namespace Build

theorem Keeps.map {x : Build α β} (hx : Keeps allowed x) (f : β → γ) : Keeps allowed (f <$> x) := by
  intro opens g g' c hg hb
  obtain ⟨b, hb, -⟩ := map_ok.1 hb
  exact hx opens g g' b hg hb

theorem Keeps.of_map {x : Build α β} {f : β → γ} (h : Keeps allowed (f <$> x)) : Keeps allowed x :=
  fun opens g g' b hg hb => h opens g g' (f b) hg (map_ok.2 ⟨b, hb, rfl⟩)

theorem Keeps.array_mapM {f : β → Build α γ} (hf : ∀ b, Keeps allowed (f b)) (a : NDArray β) :
    Keeps allowed (a.mapM f) := by
  have hlist : Keeps allowed (NDArray.toList <$> a.mapM f) := by
    rw [NDArray.toList_mapM]
    exact .mapM hf _
  exact hlist.of_map

theorem Keeps.tabulateM {f : List Nat → Build α γ} (hf : ∀ i, Keeps allowed (f i)) (s : Shape) :
    Keeps allowed (NDArray.tabulateM s f) := by
  have hlist : Keeps allowed (NDArray.toList <$> NDArray.tabulateM s f) := by
    rw [NDArray.toList_tabulateM]
    exact .mapM (fun p => hf _) _
  exact hlist.of_map

theorem keeps_ofShape (x : Except ShapeError β) : Keeps allowed (ofShape x : Build α β) := by
  cases x with
  | ok b => exact keeps_pure b
  | error e => exact keeps_throw _

theorem Keeps.ite {c : Prop} [Decidable c] {x y : Build α β} (hx : Keeps allowed x)
    (hy : Keeps allowed y) : Keeps allowed (if c then x else y) := by
  split
  · exact hx
  · exact hy

/-- A construction that goes on unless something is wrong. -/
theorem Keeps.unless {c : Prop} [Decidable c] {e : GraphError} {x : Build α β}
    (hx : Keeps allowed x) :
    Keeps allowed (if c then (throw e : Build α PUnit) >>= fun _ => x else x) :=
  ((keeps_throw e).bind fun _ => hx).ite hx

end Build

namespace Operand

theorem mapNodes_keeps (op : String) {f : Node → Build α Node} (hf : ∀ n, Keeps allowed (f n))
    (x : Operand α) : Keeps allowed (x.mapNodes op f : Build α (Operand α)) := by
  cases x with
  | node n => exact (hf n).map _
  | fold ns => exact (Keeps.array_mapM hf ns).map _
  | scalar c => exact keeps_throw _
  | array a => exact keeps_throw _

variable [Scalar α]

theorem broadcastMap_keeps {build : List (Cell α) → Build α Node}
    (hf : ∀ cells, Keeps allowed (build cells)) (operands : List (Operand α)) :
    Keeps allowed (broadcastMap operands build : Build α (Operand α)) := by
  refine (keeps_ofShape _).bind fun s => (keeps_ofGraph _).bind fun columns => ?_
  refine (Keeps.tabulateM (fun i => hf _) s).bind fun nodes => ?_
  split
  · exact keeps_pure _
  · exact keeps_pure _

end Operand

/-- A dispatcher whose answers add nodes in the ways of `Grown` only. -/
def Dispatcher.Keeps (allowed : Element α → Prop) (d : Dispatcher α) : Prop :=
  ∀ (kind : DispatchKind) (name : String) (operands : List (Operand α)) (params : Params α),
    Build.Keeps allowed (d kind name operands params)

/-- The same for a handler, which may go on to a dispatcher. -/
def Handler.Keeps (allowed : Element α → Prop) (h : Handler α) : Prop :=
  ∀ d : Dispatcher α, Dispatcher.Keeps allowed d →
    ∀ (operands : List (Operand α)) (params : Params α), Build.Keeps allowed (h d operands params)

/-- The same for all handlers of a registry. -/
def Registry.Keeps (allowed : Element α → Prop) (r : Registry α) : Prop :=
  ∀ e ∈ r.history, Handler.Keeps allowed e.handler

namespace Registry

theorem Keeps.register {r : Registry α} (hr : r.Keeps allowed) (kind : DispatchKind) (name : String)
    {h : Handler α} (hh : Handler.Keeps allowed h) : (r.register kind name h).Keeps allowed := by
  intro e he
  rcases List.mem_cons.1 he with rfl | he
  · exact hh
  · exact hr e he

theorem firstAnswer_keeps {d : Dispatcher α} (hd : Dispatcher.Keeps allowed d)
    (operands : List (Operand α)) (params : Params α) {hs : List (Handler α)}
    (hall : ∀ h ∈ hs, Handler.Keeps allowed h) :
    Build.Keeps allowed (firstAnswer d operands params hs) := by
  induction hs with
  | nil => exact keeps_pure _
  | cons h hs ih =>
    intro opens g g' answer hg ha
    rw [firstAnswer_run] at ha
    cases hh : (h d operands params).run g with
    | error e =>
      rw [hh] at ha
      cases ha
    | ok asked =>
      obtain ⟨x, g₁⟩ := asked
      rw [hh] at ha
      cases x with
      | none => exact ih (fun k hk => hall k (List.mem_cons_of_mem _ hk)) opens g g' answer hg ha
      | some x =>
        cases ha
        exact hall h List.mem_cons_self d hd operands params opens g _ _ hg hh

variable [Scalar α] {r : Registry α} {d : Dispatcher α}

theorem call_keeps (hr : r.Keeps allowed) (hd : Dispatcher.Keeps allowed d) :
    Dispatcher.Keeps allowed (r.call d) := by
  intro kind name operands params
  have hchain : ∀ h ∈ r.chain kind name, Handler.Keeps allowed h := by
    intro h hh
    obtain ⟨e, he, rfl⟩ := List.mem_map.1 hh
    exact hr e (List.mem_filter.1 he).1
  refine (keeps_ofGraph _).ite (.unless ?_)
  refine (firstAnswer_keeps hd operands params hchain).bind fun answer => ?_
  cases answer with
  | some x => exact keeps_pure _
  | none => exact keeps_throw _

theorem dispatchWithin_keeps (hr : r.Keeps allowed) (depth : Nat) :
    Dispatcher.Keeps allowed (r.dispatchWithin depth) := by
  induction depth with
  | zero => exact fun _ _ _ _ => keeps_throw _
  | succ depth ih => exact call_keeps hr ih

theorem dispatch_keeps (hr : r.Keeps allowed) : Dispatcher.Keeps allowed r.dispatch :=
  dispatchWithin_keeps hr _

end Registry

namespace Builtin

theorem mapLanes_keeps {build : List Node → Build α Node} (hf : ∀ ns, Keeps allowed (build ns))
    (f : Fold) (axis : Nat) : Keeps allowed (mapLanes f axis build) := by
  have hlanes : Keeps allowed (NDArray.tabulateM (f.shape.eraseIdx axis) fun i =>
      build (f.lane axis i)) := .tabulateM (fun i => hf _) _
  exact .ite (((hf []).map _).bind fun _ => hlanes) hlanes

theorem intParam_keeps (op key : String) (params : Params α) :
    Keeps allowed (intParam op key params) := by
  unfold intParam
  split
  · exact keeps_pure _
  · split
    · exact keeps_pure _
    · exact keeps_throw _

theorem axisParam_keeps (op : String) (params : Params α) (rank : Nat) :
    Keeps allowed (axisParam op params rank) :=
  (intParam_keeps op "axis" params).bind fun _ => keeps_ofShape _

theorem folds_keeps (op : String) (operands : List (Operand α)) :
    Keeps allowed (folds op operands) :=
  .unless (.ite (keeps_pure _) ((Keeps.mapM (fun _ => keeps_ofGraph _) operands).map _))

/-- Folds that are joined along the axis that the parameters name. -/
theorem joining_keeps (op : String) (rank : List Fold → Nat)
    (join : List Fold → Nat → Except ShapeError Fold) (operands : List (Operand α))
    (params : Params α) :
    Keeps allowed (do
      match ← folds op operands with
      | none => return none
      | some fs =>
        let axis ← axisParam op params (rank fs)
        return some (.fold (← ofShape (join fs axis))) : Build α (Option (Operand α))) := by
  refine (folds_keeps op operands).bind fun fs => ?_
  cases fs with
  | none => exact keeps_pure _
  | some fs =>
    exact (axisParam_keeps _ params _).bind fun _ => (keeps_ofShape _).bind fun _ => keeps_pure _

theorem concatenate_keeps : Handler.Keeps allowed (concatenate (α := α)) :=
  fun _ _ operands params => joining_keeps _ firstRank _ operands params

theorem stack_keeps : Handler.Keeps allowed (stack (α := α)) :=
  fun _ _ operands params => joining_keeps _ (firstRank · + 1) stackAlong operands params

variable [Scalar α] (hall : ∀ k : BuiltinKind α, allowed k.element)

include hall

theorem binaryNode_keeps (name : String) (cells : List (Cell α)) :
    Keeps allowed (binaryNode name cells) := by
  unfold binaryNode
  split
  · split
    · exact keeps_affine hall _ _ _
    · exact keeps_affine hall _ _ _
    · exact keeps_product hall _ _
    · exact keeps_throw _
  · split
    · exact keeps_affine hall _ _ _
    · exact keeps_affine hall _ _ _
    · exact keeps_affine hall _ _ _
    · exact (keeps_throw _).ite (keeps_affine hall _ _ _)
    · exact keeps_decode hall _ _ _ _
    · exact keeps_throw _
  · split
    · exact keeps_affine hall _ _ _
    · exact keeps_affine hall _ _ _
    · exact keeps_affine hall _ _ _
    · exact keeps_throw _
  · exact keeps_throw _

theorem unaryNode_keeps (name : String) (f : α → α) (cells : List (Cell α)) :
    Keeps allowed (unaryNode name f cells) := by
  unfold unaryNode
  split
  · exact (keeps_affine hall _ _ _).ite (keeps_decode hall _ _ _ _)
  · exact keeps_throw _

theorem binary_keeps (name : String) : Handler.Keeps allowed (binary (α := α) name) := by
  intro d hd operands params
  unfold binary
  split
  · exact .ite (keeps_pure _) ((Operand.broadcastMap_keeps (binaryNode_keeps hall name) _).map _)
  · exact keeps_throw _

theorem unary_keeps (name : String) : Handler.Keeps allowed (unary (α := α) name) := by
  intro d hd operands params
  unfold unary
  split
  · exact keeps_throw _
  · exact (Operand.broadcastMap_keeps (unaryNode_keeps hall name _) _).map _
  · exact keeps_throw _

theorem reduction_keeps (r : Reduction α) (op : String) (lane : List Node) :
    Keeps allowed (r.node op lane) := by
  refine .unless ?_
  cases r with
  | sum => exact keeps_affine hall _ _ _
  | mean => exact keeps_affine hall _ _ _
  | weighted weights => exact .unless (keeps_affine hall _ _ _)

theorem reduceFold_keeps (op : String) (r : Reduction α) (f : Fold) (axis : Option Nat) :
    Keeps allowed (reduceFold op r f axis) := by
  cases axis with
  | none => exact (reduction_keeps hall r op _).map _
  | some axis => exact (mapLanes_keeps (reduction_keeps hall r op) f axis).map _

theorem reduce_keeps (op : String) (r : Reduction α) : Handler.Keeps allowed (reduce op r) := by
  intro d hd operands params
  unfold reduce
  split
  · refine .ite (keeps_pure _) ((keeps_ofGraph _).bind fun f => ?_)
    refine (intParam_keeps op "axis" params).bind fun axis => ?_
    cases axis with
    | none => exact (reduceFold_keeps hall op r f none).map _
    | some axis =>
      exact (keeps_ofShape _).bind fun axis => (reduceFold_keeps hall op r f (some axis)).map _
  · exact keeps_throw _

theorem dot_keeps : Handler.Keeps allowed (dot (α := α)) := by
  intro d hd operands params
  unfold dot
  split
  · refine .ite (keeps_pure _) ?_
    split
    · exact keeps_throw _
    · refine (keeps_ofGraph _).bind fun f => .unless ?_
      exact (reduceFold_keeps hall _ _ f _).map _
  · exact keeps_throw _

theorem transform_keeps : Handler.Keeps allowed (transform (α := α)) := by
  intro d hd operands params
  unfold transform
  split
  · refine .ite (keeps_pure _) ?_
    split
    · exact (Operand.mapNodes_keeps _ (fun n => keeps_affine hall _ _ _) _).map _
    · split
      · exact (Operand.mapNodes_keeps _ (fun n => keeps_linear hall _ _) _).map _
      · exact keeps_throw _
  · exact keeps_throw _

theorem bundle_keeps : Handler.Keeps allowed (bundle (α := α)) := by
  intro d hd operands params
  unfold bundle
  split
  · refine .ite (keeps_pure _) ((keeps_ofGraph _).bind fun f => ?_)
    refine (axisParam_keeps _ params _).bind fun axis => ?_
    exact (mapLanes_keeps (keeps_bundle hall) f axis).bind fun _ => keeps_pure _
  · exact keeps_throw _

theorem components_keeps (f : Fold) (size : Nat) : Keeps allowed (components (α := α) f size) :=
  (Keeps.mapM (fun n => .mapM (fun k => keeps_slice hall n [k]) _) _).map _

theorem unbundle_keeps : Handler.Keeps allowed (unbundle (α := α)) := by
  intro d hd operands params
  unfold unbundle
  split
  · refine .ite (keeps_pure _) ((keeps_ofGraph _).bind fun f => ?_)
    refine (axisParam_keeps _ params _).bind fun axis => ?_
    refine (Keeps.mapM keeps_sizeOf _).bind fun sizes => ?_
    dsimp only
    split
    · exact keeps_throw _
    · refine (components_keeps hall f _).bind fun nodes => ?_
      exact (keeps_ofShape _).bind fun _ => (keeps_ofShape _).bind fun _ => keeps_pure _
  · exact keeps_throw _

theorem filter_keeps : Handler.Keeps allowed (filter (α := α)) := by
  intro d hd operands params
  unfold filter
  split
  · refine .ite (keeps_pure _) ?_
    have hnodes : ∀ (x : Operand α) (tau : Option α),
        Keeps allowed (some <$> x.mapNodes "filter" fun n => Build.filter n tau) := fun x tau =>
      (Operand.mapNodes_keeps _ (fun n => keeps_filter hall n tau) x).map _
    split
    · exact (keeps_pure _).bind fun tau => hnodes _ tau
    · split
      · exact (keeps_pure _).bind fun tau => hnodes _ tau
      · exact (keeps_throw _).bind fun tau => hnodes _ tau
  · exact keeps_throw _

end Builtin

/-- The built-in handlers add nodes in the ways of `Grown` only. -/
theorem Registry.builtin_keeps [Scalar α] (hall : ∀ k : BuiltinKind α, allowed k.element) :
    (builtin : Registry α).Keeps allowed := by
  intro e he
  have he : e ∈ Builtin.registrations := mem_history_registerAll.1 he
  rcases List.mem_append.1 he with he | he
  · rcases List.mem_append.1 he with he | he
    · obtain ⟨name, -, rfl⟩ := List.mem_map.1 he
      exact Builtin.binary_keeps hall name
    · obtain ⟨name, -, rfl⟩ := List.mem_map.1 he
      exact Builtin.unary_keeps hall name
  · simp only [List.mem_cons, List.not_mem_nil, or_false] at he
    rcases he with rfl | rfl | rfl | rfl | rfl | rfl | rfl | rfl | rfl
    · exact Builtin.reduce_keeps hall _ _
    · exact Builtin.reduce_keeps hall _ _
    · exact Builtin.dot_keeps hall
    · exact Builtin.concatenate_keeps
    · exact Builtin.stack_keeps
    · exact Builtin.transform_keeps hall
    · exact Builtin.bundle_keeps hall
    · exact Builtin.unbundle_keeps hall
    · exact Builtin.filter_keeps hall

namespace Operation

variable {d : Dispatcher α}

theorem chain_keeps (hd : Dispatcher.Keeps allowed d) (name : String) (x : Operand α) (times : Nat) :
    Build.Keeps allowed (chain d name x times) := by
  induction times generalizing x with
  | zero => exact keeps_pure _
  | succ times ih => exact (hd .ufunc name [x] .empty).bind fun y => ih y

theorem configure_keeps (x : Operand α) (overlay : Params α) :
    Build.Keeps allowed (configure x overlay) :=
  x.mapNodes_keeps _ fun n => keeps_configure n overlay

theorem integrate_keeps (u : Operand α) {integrand : Option (Node → Build α Node)}
    (hf : ∀ f ∈ integrand, ∀ s, Build.Keeps allowed (f s)) :
    Build.Keeps allowed (integrate u integrand) :=
  u.mapNodes_keeps _ fun n => keeps_integrate n hf

variable [Scalar α] (hall : ∀ k : BuiltinKind α, allowed k.element)

include hall

theorem stimuli_keeps (values : NDArray α) : Build.Keeps allowed (stimuli values) :=
  (Keeps.array_mapM (fun v => keeps_stimulus hall (.constant [v])) values).map _

theorem stimuliSignals_keeps (signals : NDArray (Signal α)) :
    Build.Keeps allowed (stimuliSignals signals) :=
  (Keeps.array_mapM (keeps_stimulus hall) signals).map _

theorem decode_keeps (x : Operand α) (function : VectorFunction α) (size : Option Nat)
    (explicit : Params α) : Build.Keeps allowed (decode x function size explicit) :=
  x.mapNodes_keeps _ fun n => keeps_decode hall n function size explicit

theorem slice_keeps (x : Operand α) (indices : List Nat) : Build.Keeps allowed (slice x indices) :=
  x.mapNodes_keeps _ fun n => keeps_slice hall n indices

theorem stateRate_keeps (a : Matrix α) {state : Option (Node → Build α Node)}
    (hf : ∀ f ∈ state, ∀ s, Build.Keeps allowed (f s)) (x : Node) :
    Build.Keeps allowed (stateRate a state x) := by
  have hrate : ∀ n : Node, Build.Keeps allowed (Build.transform n a) := fun n =>
    keeps_linear hall [n] [a]
  cases state with
  | none => exact (keeps_pure x).bind hrate
  | some f => exact (hf f rfl x).bind hrate

theorem lti_keeps (hd : Dispatcher.Keeps allowed d) (u : Operand α) (a b : Matrix α)
    {state : Option (Node → Build α Node)} (hf : ∀ f ∈ state, ∀ s, Build.Keeps allowed (f s)) :
    Build.Keeps allowed (lti d u a b state) := by
  refine Keeps.bind (hd _ _ _ _) fun driven => integrate_keeps driven ?_
  rintro _ ⟨⟩ s
  exact stateRate_keeps hall a hf s

namespace Method

omit hall [Scalar α] in
theorem settle_keeps (receiver : Operand α) {answer : Build α (Operand α)}
    (h : Build.Keeps allowed answer) : Build.Keeps allowed (settle receiver answer) :=
  h.bind fun _ => keeps_ofGraph _

omit hall [Scalar α] in
theorem likeFold_keeps (receiver : Operand α) {answer : Build α (Operand α)}
    (h : Build.Keeps allowed answer) :
    Build.Keeps allowed (do ofGraph (receiver.likeFold (← answer)) : Build α (Operand α)) :=
  h.bind fun _ => keeps_ofGraph _

omit hall [Scalar α] in
theorem unbundle_keeps (hd : Dispatcher.Keeps allowed d) (x : Operand α) (axis : Nat) :
    Build.Keeps allowed (Method.unbundle d x axis) := by
  unfold Method.unbundle
  split
  · exact Keeps.bind (hd _ _ _ _) fun _ => (keeps_ofGraph _).map _
  · exact likeFold_keeps _ (hd _ _ _ _)

theorem lti_keeps (hd : Dispatcher.Keeps allowed d) (u : Operand α) (a b : Matrix α)
    {state : Option (Node → Build α Node)} (hf : ∀ f ∈ state, ∀ s, Build.Keeps allowed (f s)) :
    Build.Keeps allowed (Method.lti d u a b state) := by
  unfold Method.lti
  split
  · refine Keeps.bind (settle_keeps _ (hd _ _ _ _)) fun driven => integrate_keeps driven ?_
    rintro _ ⟨⟩ s
    exact stateRate_keeps hall a hf s
  · exact (Operation.lti_keeps hall hd u a b hf).bind fun _ => keeps_ofGraph _

end Method

end Operation

end SignalGraph
