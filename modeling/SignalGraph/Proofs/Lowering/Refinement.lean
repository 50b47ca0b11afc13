import SignalGraph.Proofs.Lowering.Outputs
import SignalGraph.Proofs.Lowering.Placing
import SignalGraph.Proofs.Simulation.Feedback

namespace SignalGraph

variable {α : Type}

variable [Scalar α]

/-- Only a filter looks back. -/
theorem BuiltinKind.row_congr {kind : BuiltinKind α} (hk : kind ≠ .filter) (size : Nat)
    (t decay : α) (before before' : List α) (xs : List (List α)) :
    kind.row size t decay before xs = kind.row size t decay before' xs := by
  cases kind with
  | filter => exact absurd rfl hk
  | _ => rfl

namespace Circuit.Made

variable {net : Network α} {dt : α} {c : Circuit α}

theorem initial_of (hm : c.Made net dt) {h : Handle} (hh : net.holds h = true) :
    c.initial.of h.id = List.replicate h.size Scalar.zero := by
  obtain ⟨r, hr, hs⟩ := Network.holds_iff.1 hh
  simp [initial, Values.of, Array.getD_eq_getD_getElem?, hm.sizes, hr, hs]

theorem not_feedback (hm : c.Made net dt) {i n : Nat} {o : NetworkObject α}
    (hr : net.objects[i]? = some ⟨o, n⟩) (ho : ∀ u f, o ≠ .feedback u f) (a : Nat)
    (g : Option Nat) : c.parts[i]? ≠ some (.feedback a g) := by
  intro hp
  obtain ⟨r, hr', hpart⟩ := hm.record hp
  cases hr.symm.trans hr'
  obtain ⟨input, f, he, -, -⟩ := part_eq_feedback hpart
  exact ho input f he

/-- What the object at a place puts out in a step. -/
theorem settled (hm : c.Made net dt) {kernel : Kernel α} {t : α} {old new : Values α}
    (hv : c.Settles kernel t old new) {i n : Nat} {o : NetworkObject α}
    (hr : net.objects[i]? = some ⟨o, n⟩) :
    ∃ p : Part α, Circuit.part dt i ⟨o, n⟩ = .ok p ∧
      p.output kernel t i n (old.of i) new.of = .ok (new.of i) := by
  obtain ⟨p, hp, hpart⟩ := hm.part i _ hr
  have ho := hv.output i p hp
  rw [hm.sizes_getD hr] at ho
  exact ⟨p, hpart, ho⟩

/-- Feedback objects put out the state that they have. -/
theorem settled_feedback (hm : c.Made net dt) {kernel : Kernel α} {t : α} {old new : Values α}
    (hv : c.Settles kernel t old new) {i n : Nat} {input : Handle} {f : Option Handle}
    (hr : net.objects[i]? = some ⟨.feedback input f, n⟩) : new.of i = old.of i := by
  obtain ⟨p, hp, ho⟩ := hm.settled hv hr
  cases hp
  exact (Except.ok.inj ho).symm

end Circuit.Made

namespace Blueprint

section Image

variable {b : Blueprint α} {r : Realization α (Network α)} {n : Node} {h : Handle}
  {rec : NodeRecord α} (hi : b.Image r n h) (hrec : b.graph.record? n = some rec)

include hi hrec

/-- The object of a placeholder is that of its integrator. -/
theorem Image.of_state (hk : rec.kind = .state) :
    ∃ (owner : NodeRecord α) (o : Nat) (f : Option Node) (input : Handle) (g : Option Handle),
      b.graph.records[o]? = some owner ∧ owner.kind = .integrate n f ∧
        r.target.objects[h.id]? = some ⟨.feedback input g, h.size⟩ := by
  cases hi with
  | state _ _ ho hk' hobj => exact ⟨_, _, _, _, _, ho, hk', hobj⟩
  | configure hr hk' _ _ _ | object hr hk' _ _ _ _ | integrate hr hk' _ _ _ _ _ =>
    cases hrec.symm.trans hr
    cases hk.symm.trans hk'

/-- The object of an integrator reads its input and its integrand. -/
theorem Image.of_integrate {s : Node} {f : Option Node} (hk : rec.kind = .integrate s f) :
    ∃ (u : Node) (input : Handle) (g : Option Handle), rec.inputs = [u] ∧
      r.built u = some input ∧ f.map r.built = g.map some ∧
        r.target.objects[h.id]? = some ⟨.feedback input g, h.size⟩ := by
  cases hi with
  | integrate hr hk' hin _ hu hf hobj =>
    cases hrec.symm.trans hr
    cases hk.symm.trans hk'
    exact ⟨_, _, _, hin, hu, hf, hobj⟩
  | configure hr hk' _ _ _ | object hr hk' _ _ _ _ | state hr hk' _ _ _ =>
    cases hrec.symm.trans hr
    cases hk.symm.trans hk'

/-- The object of an element that is no configure node is what the element asks for. -/
theorem Image.of_element {e : Element α} (hk : rec.kind = .element e)
    (hne : b.kind n.index ≠ .configure) :
    ∃ (config : ResolvedConfig α) (inputs : List Handle) (q : Request α),
      (b.kind n.index).Asks config inputs q ∧
        r.target.objects[h.id]? = some ⟨q.object, h.size⟩ := by
  cases hi with
  | configure _ _ hkind _ _ => exact absurd hkind hne
  | object _ _ _ _ hq hobj => exact ⟨_, _, _, hq, hobj⟩
  | state hr hk' _ _ _ | integrate hr hk' _ _ _ _ _ =>
    cases hrec.symm.trans hr
    cases hk.symm.trans hk'

end Image

/-- Values before step `k + 1`. -/
structure Tracks (b : Blueprint α) (r : Realization α (Network α)) (dt : α) (k : Nat)
    (values : Values α) : Prop where
  state : ∀ (s : Node) (rec : NodeRecord α) (h : Handle), b.graph.record? s = some rec →
    rec.kind = .state → r.built s = some h → values.of h.id = b.stream dt k s.index
  filter : ∀ (n : Node) (rec : NodeRecord α) (e : Element α) (h : Handle),
    b.graph.record? n = some rec → rec.kind = .element e → b.kind n.index = .filter →
      r.built n = some h → values.of h.id = b.earlier (b.before dt k) n.index

/-- Values that the nodes have in step `k + 1`. -/
def Shows (b : Blueprint α) (r : Realization α (Network α)) (dt : α) (k : Nat)
    (values : Values α) : Prop :=
  ∀ (n : Node) (h : Handle), r.built n = some h → values.of h.id = b.stream dt k n.index

variable {b : Blueprint α} {r : Realization α (Network α)} {c : Circuit α} {dt : α} {k : Nat}
  {old new : Values α}

theorem initial_tracks (hg : b.Good r) (hm : c.Made r.target dt) : b.Tracks r dt 0 c.initial := by
  constructor
  · intro s rec h hr hk hb
    rw [hm.initial_of (hg.holds s h hb), hg.size s h hb, stream_state hr hk]
    rfl
  · intro n rec e h hr hk hf hb
    rw [hm.initial_of (hg.holds n h hb), hg.size n h hb]
    rfl

/-- What the object of an element settles at, its inputs having settled. -/
theorem element_row [Scalar.Exact α] (hg : b.Good r) (hd : b.Direct) (hm : c.Made r.target dt)
    {t : α} (hv : c.Settles Kernel.sequential t old new) (hs : c.Sized new) {i : Nat}
    {rec : NodeRecord α} {e : Element α} {config : ResolvedConfig α} {inputs : List Handle}
    {q : Request α} {h : Handle} (hb : r.built ⟨i⟩ = some h)
    (hrec : b.graph.records[i]? = some rec) (hk : rec.kind = .element e)
    (hres : b.graph.resolve ⟨i⟩ e.configurable b.defaults = .ok config)
    (hin : List.Forall₂ (fun m k => r.built m = some k) rec.inputs inputs)
    (hq : (b.kind i).Asks config inputs q)
    (hobj : r.target.objects[h.id]? = some ⟨q.object, h.size⟩) :
    new.of h.id = (b.kind i).row rec.size t (BuiltinKind.kept dt (b.timeConstant i)) (old.of h.id)
      (inputs.map fun h => new.of h.id) := by
  have he := b.element i rec e hrec hk
  have hsize : h.size = rec.size := (hg.size ⟨i⟩ h hb).trans (Graph.sizeOf_record hrec)
  obtain ⟨p, hp, ho⟩ := hm.settled hv hobj
  rw [← hsize]
  have hsound := hg.reachable.wellFormed.sound _ _ hobj
  refine BuiltinKind.output_row_of_asks hq ?_ ?_ ?_ hsound.fits
    (fun u hu => hm.read_length hs (hsound.reads u hu).2) hp ho
  · intro function n name type hkind hname htype
    exact hd i rec e function n config name type hrec hk hkind hres hname htype
  · intro tau hkind htau
    have hres' := hres
    rw [he, hkind] at hres'
    congr 1
    simp [timeConstant, show b.graph.resolve ⟨i⟩ (Element.filter : Element α).configurable
      b.defaults = .ok config from hres', bind, Except.bind, htau, Except.toOption]
  · intro hkind
    have hsizes : rec.inputs.map b.graph.sizeOf = inputs.map Handle.size :=
      forall₂_map_eq (hin.imp fun m k hm => (hg.size m k hm).symm)
    rw [hsize, b.bundle i rec e hrec hk hkind, hsizes]

/-- The values that a step settles are those of the streams. -/
theorem Tracks.shows [Scalar.Exact α] (hg : b.Good r) (hd : b.Direct) (hm : c.Made r.target dt)
    (ht : b.Tracks r dt k old)
    (hv : c.Settles Kernel.sequential (Scalar.ofNat (k + 1) * dt) old new) (hs : c.Sized new) :
    b.Shows r dt k new := by
  rintro ⟨i⟩ h hb
  induction i using Nat.strongRecOn generalizing h with
  | ind i ih =>
    cases hg.image ⟨i⟩ h hb with
    | @configure rec e u us hrec hk hkind hin hu =>
      have hus := ih u.index (Graph.inputs_lt hrec u (by simp [hin])) h hu
      simp only at hkind
      rw [hus, stream_element hrec hk, hkind, hin]
      rfl
    | @object rec e config inputs q hrec hk hres hin hq hobj =>
      have hxs : (rec.inputs.map fun m => b.stream dt k m.index) =
          inputs.map fun u => new.of u.id := by
        refine forall₂_map_eq (List.forall₂_iff_zip.2 ⟨hin.length_eq, ?_⟩)
        intro m u hmu
        have hm' := (List.of_mem_zip hmu).1
        have hbu := List.forall₂_zip hin hmu
        exact (ih m.index (Graph.inputs_lt hrec m hm') u hbu).symm
      have hrow := element_row hg hd hm hv hs hb hrec hk hres hin hq hobj
      rw [hrow, stream_element hrec hk, hxs]
      by_cases hf : b.kind i = .filter
      · rw [ht.filter ⟨i⟩ rec e h hrec hk hf hb]
      · exact BuiltinKind.row_congr hf _ _ _ _ _ _
    | state hrec hk _ _ hobj =>
      rw [hm.settled_feedback hv hobj]
      exact ht.state ⟨i⟩ _ h hrec hk hb
    | @integrate rec s u f input g hrec hk hin hsb hu hf hobj =>
      obtain ⟨-, p, hp, hpk, -⟩ := b.integrate i rec s f hrec hk
      rw [hm.settled_feedback hv hobj, ht.state s p h hp hpk hsb, stream_integrate hrec hk,
        stream_state hp hpk]

/-- A known node leads through configure nodes to one that has an object of its own. -/
theorem leads (hg : b.Good r) {n : Node} {h : Handle} (hb : r.built n = some h) :
    ∃ (m : Node) (rec : NodeRecord α), b.StandsFor n m ∧ r.built m = some h ∧
      b.graph.record? m = some rec ∧ ∀ e, rec.kind = .element e → b.kind m.index ≠ .configure := by
  obtain ⟨i⟩ := n
  induction i using Nat.strongRecOn with
  | ind i ih =>
    cases hg.image ⟨i⟩ h hb with
    | @configure rec e u us hrec hk hkind hin hu =>
      obtain ⟨m, rec', hst, hm⟩ := ih u.index (Graph.inputs_lt hrec u (by simp [hin])) hu
      exact ⟨m, rec', .configure hrec hk hkind hin hst, hm⟩
    | @object rec e config inputs q hrec hk hres hin hq hobj =>
      refine ⟨⟨i⟩, rec, .refl _, hb, hrec, ?_⟩
      intro e' _ hkind
      simp only at hkind hq
      rw [hkind] at hq
      cases hq
    | state hrec hk _ _ _ =>
      refine ⟨⟨i⟩, _, .refl _, hb, hrec, ?_⟩
      intro e' he
      rw [hk] at he
      cases he
    | integrate hrec hk _ _ _ _ _ =>
      refine ⟨⟨i⟩, _, .refl _, hb, hrec, ?_⟩
      intro e' he
      rw [hk] at he
      cases he

/-- When it is the turn of an integrator, what it reads has not moved on yet. -/
theorem partly_eq (hg : b.Good r) (ha : b.Apart) (hm : c.Made r.target dt) {o : Nat}
    {rec : NodeRecord α} {s n : Node} {f : Option Node} {h u : Handle}
    (hrec : b.graph.records[o]? = some rec) (hk : rec.kind = .integrate s f)
    (hs : r.built s = some h) (hn : n ∈ rec.inputs ++ f.toList) (hb : r.built n = some u) :
    c.partly new h.id u.id = new.of u.id := by
  unfold Circuit.partly
  split
  · rename_i hlt
    obtain ⟨m, rec', hst, hbm, hrec', hne⟩ := leads hg hb
    obtain ⟨hint, hstate⟩ := ha o rec rec' s f n m hrec hk hn hst hrec'
    cases hg.image m u hbm with
    | configure hr hk' hkind _ _ =>
      cases hrec'.symm.trans hr
      exact absurd hkind (hne _ hk')
    | object _ _ _ _ hq hobj =>
      exact c.advanceAll_other new (hm.not_feedback hobj hq.not_feedback)
    | state hr hk' _ _ _ =>
      cases hrec'.symm.trans hr
      have hms := hstate hk'
      subst hms
      cases hs.symm.trans hbm
      exact absurd hlt (Nat.lt_irrefl _)
    | integrate hr hk' _ _ _ _ _ =>
      cases hrec'.symm.trans hr
      exact absurd hk' (hint _ _)
  · rfl

/-- An integrator moves on along what it reads. -/
theorem integrator_moves (hg : b.Good r) (ha : b.Apart) (hm : c.Made r.target dt)
    (hs : c.Sized new) (hv : b.Shows r dt k new) {o : Nat} {rec : NodeRecord α} {s : Node}
    {f : Option Node} {h : Handle} (hrec : b.graph.records[o]? = some rec)
    (hk : rec.kind = .integrate s f) (hbo : r.built ⟨o⟩ = some h) (hb : r.built s = some h) :
    Values.of (c.advanceAll new) h.id = b.integral dt (some (b.stream dt k)) s := by
  obtain ⟨u, input, g, hin, hu, hf, hobj⟩ := (hg.image ⟨o⟩ h hbo).of_integrate hrec hk
  have hread : ∀ (n : Node) (w : Handle), n ∈ rec.inputs ++ f.toList → r.built n = some w →
      c.partly new h.id w.id = b.stream dt k n.index := by
    intro n w hn hw
    rw [partly_eq hg ha hm hrec hk hb hn hw, hv n w hw]
  have hinput := hread u input (by simp [hin]) hu
  rw [c.advanceAll_feedback hs.size (hm.feedback hobj), hm.dt_eq, hv s h hb,
    integral_some hrec hk hin]
  cases f with
  | none =>
    cases g with
    | none => exact congrArg (Circuit.moved dt _) hinput
    | some g => cases hf
  | some f =>
    cases g with
    | none => cases hf
    | some g =>
      have hintegrand := hread f g (by simp) (Option.some.inj hf)
      rw [Option.map_some, Circuit.rate, hinput, hintegrand]
      rfl

/-- The feedback states move on to the next step. -/
theorem Shows.tracks (hg : b.Good r) (ho : ∀ i, b.Owned r i) (ha : b.Apart)
    (hm : c.Made r.target dt) (hs : c.Sized new) (hv : b.Shows r dt k new) :
    b.Tracks r dt (k + 1) (c.advanceAll new) := by
  constructor
  · intro s rec h hrec hk hb
    obtain ⟨owner, o, f, input, g, howner, hint, hobj⟩ := (hg.image s h hb).of_state hrec hk
    have hbo : r.built ⟨o⟩ = some h :=
      (ho o o owner s f h howner hint hb).resolve_right (Nat.lt_irrefl o)
    rw [integrator_moves hg ha hm hs hv howner hint hbo hb, stream_state hrec hk]
    rfl
  · intro n rec e h hrec hk hf hb
    obtain ⟨config, inputs, q, hq, hobj⟩ := (hg.image n h hb).of_element hrec hk (by simp [hf])
    rw [c.advanceAll_other new (hm.not_feedback hobj hq.not_feedback), hv n h hb]
    rfl

end Blueprint

end SignalGraph
