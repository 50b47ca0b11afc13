import SignalGraph.Vectorize
import SignalGraph.Proofs.Broadcast.Joins
import SignalGraph.Proofs.Graph.Construction

namespace SignalGraph

/-- Calls of a function with a state, one argument after the other, all of which succeed. -/
inductive Calls {β γ S : Type} (step : β → S → γ → S → Prop) : List β → S → List γ → S → Prop
  | nil (st : S) : Calls step [] st [] st
  | cons {x : β} {xs : List β} {y : γ} {ys : List γ} {st st' st'' : S} :
    step x st y st' → Calls step xs st' ys st'' → Calls step (x :: xs) st (y :: ys) st''

theorem Calls.length {β γ S : Type} {step : β → S → γ → S → Prop} {xs : List β} {ys : List γ}
    {st st' : S} (h : Calls step xs st ys st') : ys.length = xs.length := by
  induction h with
  | nil st => rfl
  | cons _ _ ih => rw [List.length_cons, List.length_cons, ih]

theorem calls_map {β γ δ S : Type} {step : β → S → γ → S → Prop} {f : δ → β} {xs : List δ}
    {ys : List γ} {st st' : S} :
    Calls step (xs.map f) st ys st' ↔ Calls (fun x => step (f x)) xs st ys st' := by
  induction xs generalizing st ys with
  | nil =>
    constructor
    · rintro ⟨⟩
      exact .nil _
    · rintro ⟨⟩
      exact .nil _
  | cons x xs ih =>
    constructor
    · rintro (_ | ⟨hx, hxs⟩)
      exact .cons hx (ih.1 hxs)
    · rintro (_ | ⟨hx, hxs⟩)
      exact .cons hx (ih.2 hxs)

section Effects

variable {β γ S F : Type}

/-- A call that succeeds. -/
def Succeeds (f : β → StateT S (Except F) γ) (x : β) (st : S) (y : γ) (st' : S) : Prop :=
  (f x).run st = .ok (y, st')

variable {f : β → StateT S (Except F) γ}

theorem mapM_cons_run (x : β) (xs : List β) (st : S) :
    ((x :: xs).mapM f).run st = (f x).run st >>= fun p =>
      (xs.mapM f).run p.2 >>= fun q => pure (p.1 :: q.1, q.2) := by
  simp only [List.mapM_cons, StateT.run_bind, StateT.run_pure]

theorem mapM_run_ok {xs : List β} {st st' : S} {ys : List γ} :
    (xs.mapM f).run st = .ok (ys, st') ↔ Calls (Succeeds f) xs st ys st' := by
  induction xs generalizing st ys with
  | nil =>
    rw [List.mapM_nil, StateT.run_pure, pure_eq_ok]
    constructor
    · intro h
      cases h
      exact .nil _
    · rintro ⟨⟩
      rfl
  | cons x xs ih =>
    simp only [mapM_cons_run, bind_eq_ok, pure_eq_ok]
    constructor
    · rintro ⟨⟨y, st₁⟩, hx, ⟨zs, st₂⟩, hxs, h⟩
      cases h
      exact .cons hx (ih.1 hxs)
    · rintro (_ | ⟨hx, hxs⟩)
      exact ⟨_, hx, _, ih.2 hxs, rfl⟩

/-- Calls one after the other fail with the first that fails. -/
theorem mapM_run_error {xs : List β} {st : S} {e : F} :
    (xs.mapM f).run st = .error e ↔ ∃ before x after ys mid, xs = before ++ x :: after ∧
      Calls (Succeeds f) before st ys mid ∧ (f x).run mid = .error e := by
  induction xs generalizing st with
  | nil =>
    rw [List.mapM_nil, StateT.run_pure]
    simp [pure, Except.pure]
  | cons x xs ih =>
    rw [mapM_cons_run]
    constructor
    · intro h
      cases hx : (f x).run st with
      | error e' =>
        rw [hx] at h
        cases h
        exact ⟨[], x, xs, [], st, rfl, .nil st, hx⟩
      | ok p =>
        rw [hx] at h
        cases hxs : (xs.mapM f).run p.2 with
        | ok q => simp [bind, Except.bind, pure, Except.pure, hxs] at h
        | error e' =>
          obtain rfl : e' = e := by simpa [bind, Except.bind, hxs] using h
          obtain ⟨before, z, after, ys, mid, hsplit, hcalls, hz⟩ := ih.1 hxs
          exact ⟨x :: before, z, after, p.1 :: ys, mid, by rw [hsplit]; rfl, .cons hx hcalls, hz⟩
    · rintro ⟨before, z, after, ys, mid, hsplit, hcalls, hz⟩
      cases hcalls with
      | nil =>
        cases hsplit
        rw [hz]
        rfl
      | cons hx hcalls =>
        cases hsplit
        have hxs := ih.2 ⟨_, z, after, _, mid, rfl, hcalls, hz⟩
        rw [hx]
        change (List.mapM f _).run _ >>= _ = _
        rw [hxs]
        rfl

/-- An array computed from its indices, with effects. -/
theorem tabulateM_run_ok {s : Shape} {f : List Nat → StateT S (Except F) γ} {st st' : S}
    {a : NDArray γ} :
    (NDArray.tabulateM s f).run st = .ok (a, st') ↔
      a.shape = s ∧ Calls (Succeeds f) (Shape.indices s) st a.toList st' := by
  have shape : ∀ {a : NDArray γ} {st' : S}, (NDArray.tabulateM s f).run st = .ok (a, st') →
      a.shape = s := by
    intro a st' h
    rw [NDArray.tabulateM, StateT.run_map, map_eq_ok] at h
    obtain ⟨p, -, hp⟩ := h
    cases hp
    rfl
  have list : (NDArray.toList <$> NDArray.tabulateM s f).run st = .ok (a.toList, st') ↔
      Calls (Succeeds f) (Shape.indices s) st a.toList st' := by
    rw [NDArray.toList_tabulateM, ← mapM_run_ok, Shape.indices_eq, List.mapM_map]
    rfl
  rw [← list, StateT.run_map, map_eq_ok]
  constructor
  · intro h
    exact ⟨shape h, _, h, rfl⟩
  · rintro ⟨hs, ⟨b, st''⟩, hb, h⟩
    obtain ⟨hl, rfl⟩ := Prod.mk.inj h
    rwa [← NDArray.ext_toList ((shape hb).trans hs.symm) hl]

theorem tabulateM_run_error {s : Shape} {f : List Nat → StateT S (Except F) γ} {st : S} {e : F} :
    (NDArray.tabulateM s f).run st = .error e ↔ ∃ before i after ys mid,
      Shape.indices s = before ++ i :: after ∧ Calls (Succeeds f) before st ys mid ∧
        (f i).run mid = .error e := by
  have list : (NDArray.toList <$> NDArray.tabulateM s f).run st = .error e ↔
      ((Shape.indices s).mapM f).run st = .error e := by
    rw [NDArray.toList_tabulateM, Shape.indices_eq, List.mapM_map]
    rfl
  rw [← mapM_run_error, ← list, StateT.run_map]
  cases (NDArray.tabulateM s f).run st <;> simp [Functor.map, Except.map]

end Effects

/-- Construction by functions with a state of their own beside the graph. An error comes with the
states that it leaves. -/
abbrev Tracked (α σ : Type) := StateT (Graph α × σ) (Except (GraphError × Graph α × σ))

instance {α σ : Type} : Builder α (Tracked α σ) where
  build x := fun st =>
    match x.run st.1 with
    | .ok (b, g) => .ok (b, g, st.2)
    | .error e => .error (e, st)

namespace Operand

variable {α : Type}

/-- What stands at an index of an operand. -/
def Holds : Operand α → List Nat → Cell α → Prop
  | fold f, i, c => ∃ n, f.get? i = some n ∧ c = .node n
  | node n, i, c => i = [] ∧ c = .node n
  | scalar a, i, c => i = [] ∧ c = .scalar a
  | array a, i, c => ∃ v, a.get? i = some v ∧ c = .scalar v

/-- The answer for the nodes of a shape: one node where there are no axes and no operand is an array
of nodes, else an array of that shape. -/
def Answers (operands : List (Operand α)) (s : Shape) (nodes : List Node) : Operand α → Prop
  | node n => (s = [] ∧ ∀ f, fold f ∉ operands) ∧ nodes = [n]
  | fold f => ¬(s = [] ∧ ∀ f, fold f ∉ operands) ∧ f.shape = s ∧
    (Shape.indices s).map f.get? = nodes.map some
  | _ => False

variable [Scalar α] {operands : List (Operand α)}

/-- What stands in each operand for an index of their common shape. -/
def cellsAt (operands : List (Operand α)) (i : List Nat) : List (Cell α) :=
  operands.map fun x => x.cells.entry (Shape.restrict x.shape i)

theorem holds_cellsAt {s : Shape} (h : ∀ x ∈ operands, Shape.spreads x.shape s = true)
    {i : List Nat} (hi : Shape.Within i s) :
    List.Forall₂ (fun x c => x.Holds (Shape.restrict x.shape i) c) operands (cellsAt operands i) := by
  rw [cellsAt, List.forall₂_map_right_iff, List.forall₂_same]
  intro x hx
  have hr := Shape.within_restrict (h x hx) hi
  cases x with
  | fold f => exact ⟨_, NDArray.get?_eq_entry hr, NDArray.entry_map hr⟩
  | node n => exact ⟨rfl, rfl⟩
  | scalar c => exact ⟨rfl, rfl⟩
  | array a => exact ⟨_, NDArray.get?_eq_entry hr, NDArray.entry_map hr⟩

/-- An operation position by position calls `build` on what stands at each index, in row-major order,
and answers with the nodes or with the first error. -/
structure Maps {S F : Type} (operands : List (Operand α)) (s : Shape)
    (build : List (Cell α) → StateT S (Except F) Node) (whole : StateT S (Except F) (Operand α)) :
    Prop where
  success : ∀ st x st', whole.run st = .ok (x, st') ↔ ∃ nodes,
    Calls (Succeeds build) ((Shape.indices s).map (cellsAt operands)) st nodes st' ∧
      Answers operands s nodes x
  failure : ∀ st e, whole.run st = .error e ↔ ∃ before i after nodes mid,
    Shape.indices s = before ++ i :: after ∧
      Calls (Succeeds build) (before.map (cellsAt operands)) st nodes mid ∧
        (build (cellsAt operands i)).run mid = .error e

/-- The answer of an operation position by position. -/
def answer (operands : List (Operand α)) (nodes : Fold) : Operand α :=
  match nodes.toSingle? with
  | some n => if operands.any isFold then fold nodes else node n
  | none => fold nodes

omit [Scalar α] in
theorem answers_iff {nodes : Fold} {x : Operand α} :
    Answers operands nodes.shape nodes.toList x ↔ x = answer operands nodes := by
  have hfold : (∀ f, fold f ∉ operands) ↔ ¬operands.any isFold = true := by
    rw [List.any_eq_true]
    constructor
    · rintro h ⟨y, hy, hyf⟩
      cases y with
      | fold f => exact h f hy
      | _ => cases hyf
    · exact fun h f hf => h ⟨_, hf, rfl⟩
  have hsame : ∀ f : Fold, f.shape = nodes.shape ∧
      (Shape.indices nodes.shape).map f.get? = nodes.toList.map some ↔ f = nodes := by
    intro f
    constructor
    · rintro ⟨hs, hget⟩
      rw [← hs, NDArray.map_get?_indices, List.map_inj_right fun _ _ h => Option.some.inj h] at hget
      exact NDArray.ext_toList hs hget
    · rintro rfl
      exact ⟨rfl, NDArray.map_get?_indices f⟩
  by_cases hs : nodes.shape = []
  · have hl := nodes.size_toList
    rw [hs] at hl
    obtain ⟨n, hn⟩ := List.length_eq_one_iff.1 hl
    have hsingle : nodes.toSingle? = some n := by
      simp [NDArray.toSingle?, NDArray.rank, hs, hn]
    by_cases hany : operands.any isFold = true
    · rw [answer, hsingle]
      cases x <;> simp [Answers, hsame, hfold, hany]
    · rw [answer, hsingle]
      cases x <;> simp [Answers, hfold, hany, hs, hn, eq_comm]
  · have hnone : nodes.toSingle? = none := by
      simp [NDArray.toSingle?, NDArray.rank, hs]
    rw [answer, hnone]
    cases x <;> simp [Answers, hsame, hs]

/-- The part of an operation position by position in which nodes are built. -/
theorem maps_tabulateM {S F : Type} {s : Shape} {columns : List (NDArray (Cell α))}
    (hc : spreadCells s operands = .ok columns) (build : List (Cell α) → StateT S (Except F) Node) :
    Maps operands s build
      (answer operands <$> NDArray.tabulateM s fun i => build (columns.map (·.entry i))) := by
  -- calls on the stretched columns are calls on what stands in the operands
  have hcalls : ∀ {is : List (List Nat)} {st st' : S} {nodes : List Node},
      (∀ i ∈ is, i ∈ Shape.indices s) →
        (Calls (Succeeds fun i => build (columns.map (·.entry i))) is st nodes st' ↔
          Calls (Succeeds build) (is.map (cellsAt operands)) st nodes st') := by
    intro is st st' nodes his
    have hcell : is.map (fun i => columns.map (·.entry i)) = is.map (cellsAt operands) :=
      List.map_congr_left fun i hi => spreadCells_entry hc (Shape.mem_indices.1 (his i hi))
    rw [← hcell]
    exact (@calls_map _ _ _ _ (Succeeds build) (fun i => columns.map (·.entry i)) _ _ _ _).symm
  constructor
  · intro st x st'
    rw [StateT.run_map, map_eq_ok]
    constructor
    · rintro ⟨⟨nodes, _⟩, hnodes, h⟩
      cases h
      obtain ⟨rfl, hmade⟩ := tabulateM_run_ok.1 hnodes
      exact ⟨nodes.toList, (hcalls fun i hi => hi).1 hmade, answers_iff.2 rfl⟩
    · rintro ⟨nodes, hmade, hx⟩
      have hl : nodes.length = Shape.size s := by
        simpa [Shape.indices_eq] using hmade.length
      obtain ⟨a, rfl, rfl, -⟩ := NDArray.store_eq hl
      refine ⟨(a, st'), tabulateM_run_ok.2 ⟨rfl, (hcalls fun i hi => hi).2 hmade⟩, ?_⟩
      rw [answers_iff.1 hx]
  · intro st e
    have herror : (answer operands <$> NDArray.tabulateM s fun i =>
        build (columns.map (·.entry i))).run st = .error e ↔
          (NDArray.tabulateM s fun i => build (columns.map (·.entry i))).run st = .error e := by
      rw [StateT.run_map]
      cases (NDArray.tabulateM s fun i => build (columns.map (·.entry i))).run st <;>
        simp [Functor.map, Except.map]
    rw [herror, tabulateM_run_error]
    refine exists_congr fun before => exists_congr fun i => exists_congr fun after =>
      exists_congr fun nodes => exists_congr fun mid => and_congr_right fun hsplit => ?_
    have hi : i ∈ Shape.indices s := by simp [hsplit]
    rw [hcalls fun j hj => by simp [hsplit, hj], spreadCells_entry hc (Shape.mem_indices.1 hi)]
    rfl

/-- Where the common shape can be stretched to, only building nodes is left. -/
theorem broadcastMap_eq {m : Type → Type} [Builder α m] [LawfulMonad m]
    (hpure : ∀ {β : Type} (b : β), (Builder.build (pure b : Build α β) : m β) = pure b) {s : Shape}
    {columns : List (NDArray (Cell α))} (hs : Shape.broadcastAll (operands.map shape) = .ok s)
    (hc : spreadCells s operands = .ok columns) (build : List (Cell α) → m Node) :
    broadcastMap operands build =
      answer operands <$> NDArray.tabulateM s fun i => build (columns.map (·.entry i)) := by
  have hshape : (Builder.build (Build.ofShape (.ok s)) : m Shape) = pure s := hpure s
  have hspread : (Builder.build (Build.ofGraph (.ok columns)) : m _) = pure columns := hpure columns
  rw [broadcastMap, hs, hshape, pure_bind, hc, hspread, pure_bind, map_eq_pure_bind]
  refine congrArg (_ >>= ·) (funext fun nodes => ?_)
  unfold answer
  cases nodes.toSingle? <;> rfl

/-- An operand that cannot be stretched is the first one. -/
theorem spreadCells_error {s : Shape} (hs : Shape.broadcastAll (operands.map shape) = .ok s)
    (ha : Shape.addressable s = false) : ∃ x ∈ operands.head?,
      spreadCells s operands = .error (.invalid (.cannotSpread x.shape s)) := by
  have hj := Shape.broadcastAll_eq_ok.1 hs
  cases operands with
  | nil =>
    obtain rfl := Shape.joins_nil.1 hj
    cases ha
  | cons x operands =>
    refine ⟨x, rfl, ?_⟩
    have hnone : x.cells.spread? s = none := by
      rw [NDArray.spread?, cells_shape, hj.spreads_eq List.mem_cons_self, ha]
      rfl
    rw [spreadCells, List.mapM_cons, hnone]
    rfl

end Operand

variable {α : Type} [Scalar α] {operands : List (Operand α)}

/-- The node of an element for what stands at one position. -/
def Element.onCells (e : Element α) (explicit : Params α) (cells : List (Cell α)) : Build α Node := do
  Build.element e (← cells.mapM Element.inputNode) explicit

/-- What an element reads at a position: the node there, or a source of one value, the number there. -/
def Cell.Feeds (g : Graph α) : Cell α → Node → Prop
  | node n, input => input = n
  | scalar c, input =>
    g.record? input = some ⟨.element (.stimulus (.constant [c])), [], 1, .empty, .empty⟩

omit [Scalar α] in
theorem Cell.Feeds.later {g g' : Graph α} (h : g.Extends g') {c : Cell α} {n : Node}
    (hc : c.Feeds g n) : c.Feeds g' n := by
  cases c with
  | node m => exact hc
  | scalar a => exact h.record? hc

omit [Scalar α] in
theorem Element.inputNode_feeds {c : Cell α} {n : Node} {g g' : Graph α}
    (h : (Element.inputNode c).run g = .ok (n, g')) : g.Extends g' ∧ c.Feeds g' n := by
  cases c with
  | node m =>
    obtain ⟨rfl, rfl⟩ := Build.pure_ok.1 h
    exact ⟨.refl g, rfl⟩
  | scalar a =>
    obtain ⟨size, hsize, rfl, hp⟩ := Graph.pushed_of_element h
    cases hsize
    exact ⟨hp.extension, hp.record?_new⟩

omit [Scalar α] in
/-- Constructions one after the other, each with what it makes of the graph, as long as that stays when
the graph gets more nodes. -/
theorem Build.calls_made {β γ : Type} {f : β → Build α γ} {R : Graph α → β → γ → Prop}
    (made : ∀ x g y g', (f x).run g = .ok (y, g') → g.Extends g' ∧ R g' x y)
    (kept : ∀ g g' x y, g.Extends g' → R g x y → R g' x y) {xs : List β} {ys : List γ}
    {g g' : Graph α} (h : Calls (Succeeds f) xs g ys g') :
    g.Extends g' ∧ List.Forall₂ (R g') xs ys := by
  induction h with
  | nil g => exact ⟨.refl g, .nil⟩
  | cons hx _ ih =>
    obtain ⟨hext, hnew⟩ := made _ _ _ _ hx
    obtain ⟨hlater, hall⟩ := ih
    exact ⟨hext.trans hlater, .cons (kept _ _ _ _ hlater hnew) hall⟩

/-- A node of an element that reads what stands at a position, operand by operand. -/
def Element.Reads (e : Element α) (explicit : Params α) (g : Graph α) (cells : List (Cell α))
    (n : Node) : Prop :=
  ∃ inputs size, g.record? n = some ⟨.element e, inputs, size, .empty, explicit⟩ ∧
    List.Forall₂ (Cell.Feeds g) cells inputs

omit [Scalar α] in
theorem Element.onCells_reads {e : Element α} {explicit : Params α} {cells : List (Cell α)}
    {n : Node} {g g' : Graph α} (h : (e.onCells explicit cells).run g = .ok (n, g')) :
    g.Extends g' ∧ e.Reads explicit g' cells n := by
  obtain ⟨inputs, g₁, hinputs, hn⟩ := Build.bind_ok.1 h
  obtain ⟨hext, hfeeds⟩ := Build.calls_made (fun _ _ _ _ => Element.inputNode_feeds)
    (fun _ _ _ _ hext => Cell.Feeds.later hext) (mapM_run_ok.1 hinputs)
  obtain ⟨size, -, rfl, hp⟩ := Graph.pushed_of_element hn
  exact ⟨hext.trans hp.extension, inputs, size, hp.record?_new,
    hfeeds.imp fun _ _ => Cell.Feeds.later hp.extension⟩

/-- The nodes of a vectorized element read what stands at their positions. -/
theorem Element.vectorized_reads {e : Element α} {explicit : Params α} {s : Shape}
    {nodes : List Node} {g g' : Graph α}
    (h : Calls (Succeeds (e.onCells explicit)) ((Shape.indices s).map (Operand.cellsAt operands)) g
      nodes g') :
    List.Forall₂ (fun i n => e.Reads explicit g' (Operand.cellsAt operands i) n) (Shape.indices s)
      nodes := by
  rw [← List.forall₂_map_left_iff (R := e.Reads explicit g')]
  refine (Build.calls_made (fun _ _ _ _ => Element.onCells_reads) ?_ h).2
  rintro g g' cells n hext ⟨inputs, size, hr, hfeeds⟩
  exact ⟨inputs, size, hext.record? hr, hfeeds.imp fun _ _ => Cell.Feeds.later hext⟩

/-- An operation position by position calls the function that builds its nodes once for each index of
the common shape, in row-major order and until it first fails, with what stands there in each
operand; a vectorized element does the same, and its nodes read these. Operands without a common
shape, or with one that cannot be addressed, are refused before that. -/
theorem broadcast_positions (operands : List (Operand α)) :
    (∀ err, Shape.broadcastAll (operands.map Operand.shape) = .error err →
      ∀ (σ : Type) (build : List (Cell α) → Tracked α σ Node) (st : Graph α × σ),
        (Operand.broadcastMap operands build).run st = .error (.shape err, st)) ∧
    ∀ s, Shape.broadcastAll (operands.map Operand.shape) = .ok s →
      (Shape.addressable s = false → ∃ x ∈ operands,
        ∀ (σ : Type) (build : List (Cell α) → Tracked α σ Node) (st : Graph α × σ),
          (Operand.broadcastMap operands build).run st =
            .error (.invalid (.cannotSpread x.shape s), st)) ∧
      (Shape.addressable s = true →
        (∀ i ∈ Shape.indices s, List.Forall₂ (fun x c => x.Holds (Shape.restrict x.shape i) c)
          operands (Operand.cellsAt operands i)) ∧
        (∀ (σ : Type) (build : List (Cell α) → Tracked α σ Node),
          Operand.Maps operands s build (Operand.broadcastMap operands build)) ∧
        ∀ (e : Element α) (explicit : Params α),
          Operand.Maps operands s (e.onCells explicit) (e.vectorized operands explicit) ∧
            ∀ g x g', (e.vectorized operands explicit).run g = .ok (x, g') →
              ∃ nodes, Operand.Answers operands s nodes x ∧
                List.Forall₂ (fun i n => e.Reads explicit g' (Operand.cellsAt operands i) n)
                  (Shape.indices s) nodes) := by
  refine ⟨fun err herr σ build st => ?_, fun s hs => ⟨fun ha => ?_, fun ha => ?_⟩⟩
  · rw [Operand.broadcastMap, herr]
    rfl
  · obtain ⟨x, hx, herr⟩ := Operand.spreadCells_error hs ha
    refine ⟨x, List.mem_of_mem_head? hx, fun σ build st => ?_⟩
    have hshape : (Builder.build (Build.ofShape (.ok s)) : Tracked α σ Shape) = pure s := rfl
    rw [Operand.broadcastMap, hs, hshape, pure_bind, herr]
    rfl
  · have hj := Shape.broadcastAll_eq_ok.1 hs
    have hc := Operand.spreadCells_joins hj ha
    have hspread : ∀ x ∈ operands, Shape.spreads x.shape s = true := fun x hx =>
      (hj.spreads_eq (List.mem_map_of_mem hx)).trans ha
    refine ⟨fun i hi => Operand.holds_cellsAt hspread (Shape.mem_indices.1 hi), fun σ build => ?_,
      fun e explicit => ?_⟩
    · rw [Operand.broadcastMap_eq (fun _ => rfl) hs hc]
      exact Operand.maps_tabulateM hc build
    · have hmaps : Operand.Maps operands s (e.onCells explicit) (e.vectorized operands explicit) := by
        rw [show e.vectorized operands explicit = Operand.broadcastMap operands (e.onCells explicit)
          from rfl, Operand.broadcastMap_eq (fun _ => rfl) hs hc]
        exact Operand.maps_tabulateM hc _
      refine ⟨hmaps, fun g x g' hx => ?_⟩
      obtain ⟨nodes, hmade, hanswer⟩ := (hmaps.success g x g').1 hx
      exact ⟨nodes, hanswer, Element.vectorized_reads hmade⟩

/-- A column of nodes and a row of numbers. -/
def columnAndRow : List (Operand ℚ) :=
  [.fold (.tabulate [2, 1] fun i => ⟨i.headD 0⟩), .array (.tabulate [3] fun i => i.headD 0)]

/-- Counts its calls and refuses the fifth. -/
def fourTimes (_ : List (Cell ℚ)) : Tracked ℚ Nat Node := fun (g, calls) =>
  if calls = 4 then .error (.foreignNode, g, calls) else .ok (⟨calls⟩, g, calls + 1)

/-- A row against a column, with a function that fails at the fifth of six positions. -/
theorem broadcast_positions_column :
    Shape.broadcastAll (columnAndRow.map Operand.shape) = .ok [2, 3] ∧
      Shape.addressable [2, 3] = true ∧
        List.Forall₂ (fun x c => x.Holds (Shape.restrict x.shape [1, 2]) c) columnAndRow
          [.node ⟨1⟩, .scalar 2] ∧
        (Operand.broadcastMap columnAndRow fourTimes).run (.empty, 0) =
          .error (.foreignNode, .empty, 4) := by
  have hs : Shape.broadcastAll (columnAndRow.map Operand.shape) = .ok [2, 3] := by decide
  have ha : Shape.addressable [2, 3] = true := by decide
  obtain ⟨hholds, hmaps, -⟩ := ((broadcast_positions columnAndRow).2 [2, 3] hs).2 ha
  have hcells : Operand.cellsAt columnAndRow [1, 2] = [.node ⟨1⟩, .scalar 2] := by
    simp only [Operand.cellsAt, columnAndRow, List.map_cons, List.map_nil, Operand.cells]
    rw [NDArray.entry_map (by decide), NDArray.entry_tabulate (by decide),
      NDArray.entry_map (by decide), NDArray.entry_tabulate (by decide)]
    rfl
  refine ⟨hs, ha, hcells ▸ hholds [1, 2] (by decide), ((hmaps Nat fourTimes).failure _ _).2 ?_⟩
  refine ⟨[[0, 0], [0, 1], [0, 2], [1, 0]], [1, 1], [[1, 2]], [⟨0⟩, ⟨1⟩, ⟨2⟩, ⟨3⟩], (.empty, 4), rfl,
    ?_, rfl⟩
  exact .cons rfl (.cons rfl (.cons rfl (.cons rfl (.nil _))))

/-- A column and a row of each of no layers, so that neither has a node. -/
def hollowOperands : List (Operand ℚ) :=
  [.fold (.tabulate [0, 2 ^ 32, 1] fun _ => ⟨0⟩), .fold (.tabulate [0, 1, 2 ^ 32] fun _ => ⟨0⟩)]

/-- Arrays without positions that have a common shape, one that cannot be addressed. -/
theorem hollowOperands_refused :
    NDArray.fill [0, 2 ^ 32, 1] [] = .ok (NDArray.tabulate [0, 2 ^ 32, 1] fun _ => (⟨0⟩ : Node)) ∧
      NDArray.fill [0, 1, 2 ^ 32] [] = .ok (NDArray.tabulate [0, 1, 2 ^ 32] fun _ => (⟨0⟩ : Node)) ∧
      Shape.broadcastAll (hollowOperands.map Operand.shape) = .ok [0, 2 ^ 32, 2 ^ 32] ∧
      (Operand.broadcastMap hollowOperands fourTimes).run (.empty, 0) =
        .error (.invalid (.cannotSpread [0, 2 ^ 32, 1] [0, 2 ^ 32, 2 ^ 32]), .empty, 0) :=
  ⟨rfl, rfl, rfl, rfl⟩

end SignalGraph
