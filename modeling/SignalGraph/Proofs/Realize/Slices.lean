import SignalGraph.Proofs.Realize.Progress
import SignalGraph.Proofs.Simulation.Mirrors

namespace SignalGraph

open Realize Realization Stateful

variable {α : Type} [Scalar α]

/-- Realizations of the same nodes under the same handles, on networks that mirror each other. -/
structure Realization.Mirrors (r r' : Realization α (Network α)) : Prop where
  target : r.target.Mirrors r'.target
  memo : r.memo = r'.memo
  poisoned : r.poisoned = r'.poisoned
  reports : r.reports = r'.reports

namespace Lowering

/-- A conversation that neither asks for slices nor whether there are any. -/
def Sliceless : Lowering α → Prop
  | done _ | fail _ => True
  | create q next => q.unsliced = q ∧ ∀ h, (next h).Sliceless
  | report _ next => next.Sliceless
  | connect .. | partialConnections _ => False

theorem sliceless_ofExcept {β : Type} {x : Except ParamError β} {next : β → Lowering α}
    (h : ∀ b, (next b).Sliceless) : (ofExcept x next).Sliceless := by
  cases x with
  | error e => trivial
  | ok b => exact h b

theorem sliceless_withInput {inputs : List Handle} {next : Handle → Lowering α}
    (h : ∀ w, (next w).Sliceless) : (Element.withInput inputs next).Sliceless := by
  cases inputs with
  | nil => trivial
  | cons w ws => exact h w

theorem sliceless_object {q : Request α} (h : q.unsliced = q) : (object q).Sliceless :=
  ⟨h, fun _ => trivial⟩

end Lowering

/-- Slices apart, the conversations of the built-in kinds ask for no slices. -/
theorem BuiltinKind.lower_sliceless {kind : BuiltinKind α} (hkind : ∀ indices, kind ≠ slice indices)
    (inputs : List Handle) (config : ResolvedConfig α) :
    (kind.element.lower inputs config).Sliceless := by
  cases kind with
  | stimulus | transform | bundle => exact Lowering.sliceless_object rfl
  | decode function size =>
    refine Lowering.sliceless_ofExcept fun name => Lowering.sliceless_ofExcept fun count =>
      Lowering.sliceless_ofExcept fun radius => ?_
    split
    · trivial
    · refine Lowering.sliceless_ofExcept fun seed => Lowering.sliceless_withInput fun w => ?_
      exact Lowering.sliceless_object rfl
  | slice indices => exact absurd rfl (hkind indices)
  | filter =>
    refine Lowering.sliceless_ofExcept fun tau => Lowering.sliceless_withInput fun w => ?_
    exact Lowering.sliceless_object rfl
  | configure => exact Lowering.sliceless_withInput fun w => trivial

namespace Realize

variable {r r' : Realization α (Network α)}

theorem onTarget_alike {β : Type} {call call' : Effect (Network α) β} (h : r.Mirrors r')
    (hcall : Alike Network.Mirrors (call.run r.target) (call'.run r'.target)) :
    Alike Mirrors ((onTarget call : Realize α _ β).run r) ((onTarget call').run r') := by
  obtain ⟨hanswer, hstates⟩ := hcall
  exact ⟨congrArg (·.mapError RealizeError.network) hanswer, hstates, h.memo, h.poisoned, h.reports⟩

theorem ofParams_alike {β : Type} (x : Except ParamError β) (h : r.Mirrors r') :
    Alike Mirrors ((ofParams x : Realize α _ β).run r) ((ofParams x).run r') := by
  cases x with
  | ok b => exact ⟨rfl, h⟩
  | error e => exact ⟨rfl, h⟩

theorem remember_alike (n : Node) (k : Handle) (h : r.Mirrors r') :
    Alike Mirrors ((remember n k : Realize α _ Unit).run r) ((remember n k).run r') :=
  ⟨rfl, h.target, congrArg ((n, k) :: ·) h.memo, h.poisoned, h.reports⟩

theorem converse_alike {l : Lowering α} (hl : l.Sliceless) (h : r.Mirrors r') :
    Alike Mirrors ((converse Target.network l).run r) ((converse Target.plainNetwork l).run r') := by
  induction l generalizing r r' with
  | done k => exact ⟨rfl, h⟩
  | fail e => exact ⟨rfl, h⟩
  | create q next ih =>
    obtain ⟨hq, hnext⟩ := hl
    rw [converse, converse, Network.plain_create hq]
    exact (onTarget_alike h (h.target.create q)).bind fun k _ _ _ h₁ => ih k (hnext k) h₁
  | report e next ih =>
    exact ih hl ⟨h.target, h.memo, h.poisoned, congrArg (·.push e) h.reports⟩
  | connect | partialConnections => exact hl.elim

/-- A slice that construction has checked is made on the one and selected on the other. -/
theorem converse_slice_alike {indices : List Nat} {input : Handle} {config : ResolvedConfig α}
    (h : r.Mirrors r') (hheld : r.target.holds input = true) (hne : indices ≠ [])
    (hlt : ∀ i ∈ indices, i < input.size) :
    Alike Mirrors
      ((converse Target.network ((Element.slice indices).lower [input] config)).run r)
      ((converse Target.plainNetwork ((Element.slice indices).lower [input] config)).run r') := by
  have hcreate := h.target.create_slice hheld hne hlt
  exact (onTarget_alike h hcreate).bind fun k _ _ _ h₁ => ⟨rfl, h₁⟩

/-- The conversations of an element whose inputs are realized. -/
theorem kind_alike {kind : BuiltinKind α} {inputs : List Handle} {config : ResolvedConfig α}
    {size : Nat} (h : r.Mirrors r')
    (hsize : kind.element.sizeOut (inputs.map Handle.size) = .ok size) (hne : size ≠ 0)
    (hholds : ∀ w ∈ inputs, r.target.holds w = true) :
    Alike Mirrors ((converse Target.network (kind.element.lower inputs config)).run r)
      ((converse Target.plainNetwork (kind.element.lower inputs config)).run r') := by
  by_cases hslice : ∃ indices, kind = .slice indices
  · obtain ⟨indices, rfl⟩ := hslice
    simp only [BuiltinKind.element, Element.slice, bind_eq_ok] at hsize
    obtain ⟨n, hinput, hsize⟩ := hsize
    obtain ⟨input, rfl, rfl⟩ := BuiltinKind.singleInput_ok hinput
    split at hsize
    · cases hsize
    · rename_i hfind
      cases hsize
      have hlt : ∀ i ∈ indices, i < input.size := by simpa using hfind
      refine converse_slice_alike h (hholds input (List.mem_singleton_self input)) ?_ hlt
      rintro rfl
      exact hne rfl
  · exact converse_alike (BuiltinKind.lower_sliceless (not_exists.1 hslice) inputs config) h

variable {g : Graph α} {opens : List Node} {defaults : Defaults α} {within : List Node}

/-- Places before a bound are realized alike, in the middle of whatever loops. -/
def AlikeBelow (g : Graph α) (defaults : Defaults α) (bound : Nat) : Prop :=
  ∀ i < bound, ∀ (within : List Node) (q q' : Realization α (Network α)),
    q.Opened g within (i + 1) → q.Mirrors q' →
      Alike Mirrors ((place Target.network g defaults i).run q)
        ((place Target.plainNetwork g defaults i).run q')

section

variable {n : Node} {rec : NodeRecord α} (hg : g.Regular Element.IsBuiltin opens)
  (hr : g.record? n = some rec)

include hg hr

/-- The inputs of a node are realized alike. -/
theorem inputs_alike (hplaces : AlikeBelow g defaults n.index) (ho : r.Opened g within (n.index + 1))
    (h : r.Mirrors r') :
    Alike Mirrors ((rec.inputs.mapM fun m => place Target.network g defaults m.index).run r)
      ((rec.inputs.mapM fun m => place Target.plainNetwork g defaults m.index).run r') := by
  have hlt := Graph.inputs_lt hr
  refine Alike.mapM (I := Opened g within n.index) (fun m hm q q' hq hmirror => ?_)
    (fun m hm k q q' hq hrun => ?_) (ho.mono (Nat.le_succ n.index)) h
  · exact hplaces m.index (hlt m hm) within q q' (hq.mono (hlt m hm)) hmirror
  · obtain ⟨es, ht⟩ := traced_of_place hrun
    exact hq.traced hg ht fun l hl => List.mem_singleton.1 hl ▸ hlt m hm

/-- The object of an element whose inputs are known. -/
theorem lower_alike {e : Element α} {config : ResolvedConfig α} {inputs : List Handle}
    (hk : rec.kind = .element e) (hs : r.Sized g)
    (hall : List.Forall₂ (fun m w => r.built m = some w) rec.inputs inputs) (h : r.Mirrors r') :
    Alike Mirrors ((lower Target.network e rec.size inputs config).run r)
      ((lower Target.plainNetwork e rec.size inputs config).run r') := by
  obtain ⟨kind, rfl, hsize, hne⟩ := hg.checked hr hk
  rw [hs.sizes hall] at hsize
  refine (kind_alike h hsize hne (hs.holds hall)).bind fun k s s' _ hk => ?_
  split
  · exact ⟨rfl, hk⟩
  · exact ⟨rfl, hk⟩

end

/-- The objects that are there stay as they are when a node is realized. -/
theorem place_keeps_object (hg : g.Regular Element.IsBuiltin opens) {i bound : Nat} (hi : i < bound)
    (ho : r.Opened g within bound) {k : Handle}
    (hrun : (place Target.network g defaults i).run r = (.ok k, r')) {j : Nat} {o : ObjectRecord α}
    (hj : r.target.objects[j]? = some o) : r'.target.objects[j]? = some o := by
  obtain ⟨es, ht⟩ := traced_of_place hrun
  have hns : ∀ m ∈ [(⟨i⟩ : Node)], m.index < bound := List.forall_mem_singleton.2 hi
  exact (ht.sized hg hns ho.owned ho.toSized).2.object hj

/-- The recursion goes along the places of the graph. -/
theorem place_alike (hg : g.Regular Element.IsBuiltin opens) (bound : Nat) :
    AlikeBelow g defaults bound := by
  induction bound with
  | zero => exact fun i hi => absurd hi (Nat.not_lt_zero i)
  | succ bound ih =>
    intro i hi within r r' ho h
    have hplaces : AlikeBelow g defaults i := fun j hj => ih j (by omega)
    have hbuilt : r'.built ⟨i⟩ = r.built ⟨i⟩ := by rw [built, built, h.memo]
    rw [place_eq, place_eq, get_bind, get_bind, hbuilt]
    cases hb : r.built ⟨i⟩ with
    | some k => exact ⟨rfl, h⟩
    | none =>
      cases hr : g.records[i]? with
      | none => exact ⟨rfl, h⟩
      | some rec =>
        cases hk : rec.kind with
        | state =>
          simp only [hk]
          exact ⟨rfl, h⟩
        | integrate state integrand =>
          simp only [hk]
          refine (inputs_alike (n := ⟨i⟩) hg hr hplaces ho h).bind fun inputs r₁ r₁' hin h₁ => ?_
          obtain ⟨ho₁, es, ws, hw⟩ := ho.after_inputs (n := ⟨i⟩) hg hr hin
          obtain ⟨u, k, r₂, rfl, hc⟩ := feedback_total hg hr hk ho₁.toSized hw.answers
          obtain ⟨ho₂, hobject, -⟩ := ho.open hg hb hr hk ho₁ hw hc
          refine (onTarget_alike h₁ (h₁.target.create (.feedback u))).bind fun k' _ r₂' hc' h₂ => ?_
          cases hc.symm.trans hc'
          refine (remember_alike state k h₂).bind fun _ _ r₃' hs h₃ => ?_
          cases hs
          cases integrand with
          | none => exact (remember_alike ⟨i⟩ k h₃).bind fun _ _ _ _ h₄ => ⟨rfl, h₄⟩
          | some f =>
            have hf := Graph.integrand_lt (n := ⟨i⟩) hr hk
            refine (hplaces f.index hf _ _ _ (ho₂.mono hf) h₃).bind fun rate r₄ r₄' hrun h₄ => ?_
            have hloop := place_keeps_object hg hf ho₂ hrun hobject
            refine (onTarget_alike h₄ (h₄.target.connect hloop)).bind fun _ _ _ _ h₅ => ?_
            exact (remember_alike ⟨i⟩ k h₅).bind fun _ _ _ _ h₆ => ⟨rfl, h₆⟩
        | element e =>
          simp only [hk]
          refine (ofParams_alike _ h).bind fun _ r₁ r₁' ho' h₁ => ?_
          obtain ⟨-, rfl⟩ := ofParams_ok.1 ho'
          refine (ofParams_alike _ h₁).bind fun config r₂ r₂' hres h₂ => ?_
          obtain ⟨-, rfl⟩ := ofParams_ok.1 hres
          refine (inputs_alike (n := ⟨i⟩) hg hr hplaces ho h₂).bind fun inputs r₃ r₃' hin h₃ => ?_
          obtain ⟨ho₃, es, ws, hw⟩ := ho.after_inputs (n := ⟨i⟩) hg hr hin
          refine (lower_alike (n := ⟨i⟩) hg hr hk ho₃.toSized hw.answers h₃).bind ?_
          intro k r₄ r₄' _ h₄
          exact (remember_alike ⟨i⟩ k h₄).bind fun _ _ _ _ h₅ => ⟨rfl, h₅⟩

/-- Nodes are asked of both, and both are poisoned by the same failures. -/
theorem make_alike (hg : g.Regular Element.IsBuiltin opens) (n : Node) (hs : r.Settled g)
    (h : r.Mirrors r') :
    Alike Mirrors ((make Target.network g defaults n).run r)
      ((make Target.plainNetwork g defaults n).run r') := by
  rw [make, make, get_bind, get_bind, ← h.poisoned, hs.healthy]
  have ho : r.Opened g [] (n.index + 1) :=
    ⟨hs.toSized, hs.owned _, fun s hs => absurd hs List.not_mem_nil⟩
  have hplaces : AlikeBelow g defaults (n.index + 1) := place_alike hg _
  have hplace := hplaces n.index (Nat.lt_succ_self _) [] r r' ho h
  exact hplace.tryCatch fun e s s' h' => ⟨rfl, h'.target, rfl, rfl, h'.reports⟩

/-- A node that is made leaves a settled realization, on a network that holds what it held before. -/
theorem make_settled (hg : g.Regular Element.IsBuiltin opens) {n : Node} {k : Handle}
    (hs : r.Settled g) (hrun : (make Target.network g defaults n).run r = (.ok k, r')) :
    r'.Settled g ∧ (∀ w, r.target.holds w = true → r'.target.holds w = true) ∧
      r'.target.holds k = true := by
  obtain ⟨es, ht⟩ := traced_of_place (make_ok.1 hrun).2
  obtain ⟨hs', hb⟩ := hs.traced hg ht
  have hns : ∀ m ∈ [n], m.index < n.index + 1 :=
    List.forall_mem_singleton.2 (Nat.lt_succ_self n.index)
  obtain ⟨-, hcont⟩ := ht.sized hg hns (hs.owned _) hs.toSized
  refine ⟨hs', fun w hw => ?_, (hs'.known n k hb).2.1⟩
  obtain ⟨o, ho, hsize⟩ := Network.holds_iff.1 hw
  exact Network.holds_iff.2 ⟨o, hcont.object ho, hsize⟩

theorem makes_settled (hg : g.Regular Element.IsBuiltin opens) {ns : List Node} {ks : List Handle}
    (hs : r.Settled g) (hrun : (ns.mapM (make Target.network g defaults)).run r = (.ok ks, r')) :
    r'.Settled g ∧ ∀ k ∈ ks, r'.target.holds k = true := by
  obtain ⟨hs', -, hall⟩ := mapM_ok (I := Settled g)
    (R := fun s s' => ∀ w, s.target.holds w = true → s'.target.holds w = true)
    (Q := fun _ k s => s.target.holds k = true) (fun _ _ hw => hw)
    (fun h h' w hw => h' w (h w hw)) (fun hk h => h _ hk)
    (fun n _ k s s' hs hn => make_settled hg hs hn) hs hrun
  refine ⟨hs', fun k hk => ?_⟩
  obtain ⟨n, -, hn⟩ := forall₂_mem_right hall hk
  exact hn

end Realize

/-- All that is asked of a fresh realization, in order. -/
def Making.performAll {σ : Type} (t : Target α σ) (g : Graph α) (defaults : Defaults α)
    (makings : List Making) (target : σ) :
    Except RealizeError (List (List Handle)) × Realization α σ :=
  (makings.mapM (perform t g defaults)).run (.start target)

section

variable {g : Graph α} {opens : List Node} {net net' : Network α}

theorem Making.performAll_alike (hg : g.Regular Element.IsBuiltin opens) (defaults : Defaults α)
    (hnet : net.Reachable) (makings : List Making) :
    Alike Mirrors (performAll Target.network g defaults makings net)
      (performAll Target.plainNetwork g defaults makings net) := by
  have hstart : (start net : Realization α (Network α)).Mirrors (.start net) :=
    ⟨.refl net, rfl, rfl, rfl⟩
  refine Alike.mapM (I := Settled g) (fun m _ s s' hs h => ?_) (fun m _ ks s s' hs hrun => ?_)
    (.start hnet) hstart
  · rw [perform_eq, perform_eq]
    exact Alike.mapM (I := Settled g) (fun n _ q q' hq hmirror => make_alike hg n hq hmirror)
      (fun n _ k q q' hq hrun => (make_settled hg hq hrun).1) hs h
  · rw [perform_eq] at hrun
    exact (makes_settled hg hs hrun).1

theorem Network.probe_total {ks : List Handle} (hnet : net.Reachable)
    (hks : ∀ k ∈ ks, net.holds k = true) :
    ∃ ps net', (ks.mapM Target.network.probe).run net = (.ok ps, net') ∧ net'.Reachable := by
  have hrun := Network.probe_all (fun _ p => p) hks
  simp only [id_map'] at hrun
  exact ⟨_, _, hrun, hnet.probe_all hks⟩

theorem Network.Mirrors.probeAll (h : net.Mirrors net') (ks : List Handle) :
    Alike Network.Mirrors ((ks.mapM Target.network.probe).run net)
      ((ks.mapM Target.plainNetwork.probe).run net') :=
  Alike.mapM (I := fun _ => True) (fun k _ _ _ _ ht => ht.probe k) (fun _ _ _ _ _ _ _ => trivial)
    trivial h

/-- Nodes and arrays of nodes are asked of a network and of one that takes no slices, both in the same
state before. Both answer with the same handles or refuse for the same reason, and have the same
objects afterwards but for the slices, for which the one without them selects by a matrix, which has
to have fewer than `entryLimit` entries for a machine to make it. Once all that was answered is
probed, each backend simulates both or refuses both for the same reason, and any number of steps is
recorded alike on both. -/
theorem slices_agree [Scalar.Exact α] (hg : g.Grown Element.IsBuiltin opens) (defaults : Defaults α)
    (hnet : net.Reachable) (makings : List Making) :
    Alike Realization.Mirrors (Making.performAll Target.network g defaults makings net)
      (Making.performAll Target.plainNetwork g defaults makings net) ∧
    ∀ answers r r', Making.performAll Target.network g defaults makings net = (.ok answers, r) →
      Making.performAll Target.plainNetwork g defaults makings net = (.ok answers, r') →
        r.target.size = r'.target.size ∧ ∃ probes made made',
          (answers.flatten.mapM Target.network.probe).run r.target = (.ok probes, made) ∧
          (answers.flatten.mapM Target.plainNetwork.probe).run r'.target = (.ok probes, made') ∧
          ∀ (b : Backend) (dt : α),
            Together (fun s s' => ∀ n, (s.run n).1 = (s'.run n).1 ∧
                (s.run n).2.steps = (s'.run n).2.steps ∧ (s.run n).2.values = (s'.run n).2.values ∧
                  (s.run n).2.recording = (s'.run n).2.recording)
              (b.engine.build made dt) (b.engine.build made' dt) := by
  have halike := Making.performAll_alike hg.regular defaults hnet makings
  refine ⟨halike, fun answers r r' hrun hrun' => ?_⟩
  have hmirrors : r.Mirrors r' := by
    have := halike.states
    rwa [hrun, hrun'] at this
  obtain ⟨hs, hheld⟩ := makes_settled hg.regular (.start hnet) (Making.perform_all hrun)
  obtain ⟨probes, made, hprobes, hreach⟩ := Network.probe_total hs.reachable hheld
  obtain ⟨hanswer, hstates⟩ := hmirrors.target.probeAll answers.flatten
  rw [hprobes] at hanswer hstates
  generalize hprobes' : (answers.flatten.mapM Target.plainNetwork.probe).run r'.target = outcome
    at hanswer hstates
  obtain ⟨_, made'⟩ := outcome
  cases hanswer
  exact ⟨hmirrors.target.size, probes, made, made', hprobes, rfl,
    fun b dt => b.mirrored hstates hreach.wellFormed dt⟩

/-- A source and an integrator with a slice in its integrand that repeats an index and permutes
others, and a slice of the integrator's slice. -/
def crossedLoop : Build ℚ Node := do
  let u ← Build.stimulus (.constant [1, 2, 3])
  let x ← Build.integrate u (some fun x => Build.slice x [2, 0, 0])
  let y ← Build.slice x [1, 1, 2, 0]
  Build.slice y [3, 2]

def crossedGraph : Graph ℚ := crossedLoop.graph

theorem crossedGraph_grown : crossedGraph.Grown Element.IsBuiltin [] := by
  have hall : ∀ k : BuiltinKind ℚ, k.element.IsBuiltin := fun k => ⟨k, rfl⟩
  have hk : Build.Keeps Element.IsBuiltin crossedLoop := by
    refine (Build.keeps_stimulus hall _).bind fun u => Build.Keeps.bind ?_ fun x =>
      (Build.keeps_slice hall _ _).bind fun y => Build.keeps_slice hall _ _
    refine Build.keeps_integrate _ ?_
    rintro _ ⟨⟩ x
    exact Build.keeps_slice hall _ _
  exact hk.grown

/-- The last slice, then the integrator beside it. -/
def crossedMakings : List Making := [.node ⟨5⟩, .fold ⟨[2], #v[⟨3⟩, ⟨5⟩]⟩]

theorem crossedLoop_agrees :
    crossedGraph.Grown Element.IsBuiltin [] ∧ (Network.empty none : Network ℚ).Reachable ∧
      ∃ r r' : Realization ℚ (Network ℚ),
        Making.performAll Target.network crossedGraph KeyMap.empty crossedMakings (.empty none) =
          (.ok [[⟨4, 2⟩], [⟨1, 3⟩, ⟨4, 2⟩]], r) ∧
        Making.performAll Target.plainNetwork crossedGraph KeyMap.empty crossedMakings (.empty none) =
          (.ok [[⟨4, 2⟩], [⟨1, 3⟩, ⟨4, 2⟩]], r') ∧
        r.target.kindCounts = [("source", 1), ("feedback", 1), ("slice", 3)] ∧
        r'.target.kindCounts = [("source", 1), ("feedback", 1), ("linear", 3)] ∧
        ∃ probes made made',
          ([⟨4, 2⟩, ⟨1, 3⟩, ⟨4, 2⟩].mapM Target.network.probe).run r.target = (.ok probes, made) ∧
          ([⟨4, 2⟩, ⟨1, 3⟩, ⟨4, 2⟩].mapM Target.plainNetwork.probe).run r'.target =
            (.ok probes, made') ∧
          Together (fun s s' => (s.run 5).2.recording = (s'.run 5).2.recording)
            (Backend.batched.engine.build made 1) (Backend.batched.engine.build made' 1) := by
  have hrun : ∃ r : Realization ℚ (Network ℚ),
      Making.performAll Target.network crossedGraph KeyMap.empty crossedMakings (.empty none) =
        (.ok [[⟨4, 2⟩], [⟨1, 3⟩, ⟨4, 2⟩]], r) ∧
      r.target.kindCounts = [("source", 1), ("feedback", 1), ("slice", 3)] :=
    ⟨_, Prod.ext (by decide +kernel) rfl, by decide +kernel⟩
  have hrun' : ∃ r' : Realization ℚ (Network ℚ),
      Making.performAll Target.plainNetwork crossedGraph KeyMap.empty crossedMakings (.empty none) =
        (.ok [[⟨4, 2⟩], [⟨1, 3⟩, ⟨4, 2⟩]], r') ∧
      r'.target.kindCounts = [("source", 1), ("feedback", 1), ("linear", 3)] :=
    ⟨_, Prod.ext (by decide +kernel) rfl, by decide +kernel⟩
  obtain ⟨r, hrun, hkinds⟩ := hrun
  obtain ⟨r', hrun', hkinds'⟩ := hrun'
  have hnet : (Network.empty none : Network ℚ).Reachable := .empty none
  obtain ⟨-, hall⟩ := slices_agree crossedGraph_grown KeyMap.empty hnet crossedMakings
  obtain ⟨-, probes, made, made', hprobes, hprobes', hbuild⟩ := hall _ r r' hrun hrun'
  refine ⟨crossedGraph_grown, hnet, r, r', hrun, hrun', hkinds, hkinds', probes, made, made', hprobes,
    hprobes', ?_⟩
  have hruns := hbuild .batched 1
  generalize Backend.batched.engine.build made 1 = x at hruns ⊢
  generalize Backend.batched.engine.build made' 1 = y at hruns ⊢
  cases hruns with
  | ok hruns => exact .ok (hruns 5).2.2.2
  | error e => exact .error e

end

end SignalGraph
