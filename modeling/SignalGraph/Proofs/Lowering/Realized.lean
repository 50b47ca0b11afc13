import SignalGraph.Proofs.Lowering.Streams
import SignalGraph.Proofs.Network.WellFormed
import SignalGraph.Proofs.Realize.Places

namespace SignalGraph

variable {α : Type}

@[simp] theorem Realization.built_cons {σ : Type} (r : Realization α σ) (m n : Node) (h : Handle) :
    ({ r with memo := (m, h) :: r.memo } : Realization α σ).built n =
      if n = m then some h else r.built n := by
  simp only [Realization.built, List.lookup_cons]
  by_cases hn : n = m
  · simp [hn]
  · have hb : (n == m) = false := by simpa using hn
    simp [hb, hn]

variable [Scalar α]

/-- No built-in element asks for a feedback object. -/
theorem BuiltinKind.Asks.not_feedback {kind : BuiltinKind α} {config : ResolvedConfig α}
    {inputs : List Handle} {q : Request α} (h : kind.Asks config inputs q) (u : Handle)
    (f : Option Handle) : q.object ≠ .feedback u f := by
  cases h <;> simp [Request.object]

namespace Blueprint

variable (b : Blueprint α)

/-- The object that stands for a node. A configure node shares that of its input, and an integrator
shares its own with its placeholder. -/
inductive Image (r : Realization α (Network α)) (n : Node) (h : Handle) : Prop
  | configure {rec : NodeRecord α} {e : Element α} {u : Node} {us : List Node} :
    b.graph.record? n = some rec → rec.kind = .element e → b.kind n.index = .configure →
    rec.inputs = u :: us → r.built u = some h → Image r n h
  | object {rec : NodeRecord α} {e : Element α} {config : ResolvedConfig α} {inputs : List Handle}
    {q : Request α} :
    b.graph.record? n = some rec → rec.kind = .element e →
    b.graph.resolve n e.configurable b.defaults = .ok config →
    List.Forall₂ (fun m k => r.built m = some k) rec.inputs inputs →
    (b.kind n.index).Asks config inputs q →
    r.target.objects[h.id]? = some ⟨q.object, h.size⟩ → Image r n h
  | state {rec owner : NodeRecord α} {o : Nat} {f : Option Node} {input : Handle}
    {g : Option Handle} :
    b.graph.record? n = some rec → rec.kind = .state → b.graph.records[o]? = some owner →
    owner.kind = .integrate n f →
    r.target.objects[h.id]? = some ⟨.feedback input g, h.size⟩ → Image r n h
  | integrate {rec : NodeRecord α} {s u : Node} {f : Option Node} {input : Handle}
    {g : Option Handle} :
    b.graph.record? n = some rec → rec.kind = .integrate s f → rec.inputs = [u] →
    r.built s = some h → r.built u = some input → f.map r.built = g.map some →
    r.target.objects[h.id]? = some ⟨.feedback input g, h.size⟩ → Image r n h

/-- All that is known of nodes is right. -/
structure Good (r : Realization α (Network α)) : Prop where
  reachable : r.target.Reachable
  holds : ∀ n h, r.built n = some h → r.target.holds h = true
  size : ∀ n h, r.built n = some h → h.size = b.graph.sizeOf n
  image : ∀ n h, r.built n = some h → b.Image r n h

/-- The placeholders that are known belong to integrators that are known or lie behind place `i`. -/
def Owned (r : Realization α (Network α)) (i : Nat) : Prop :=
  ∀ (o : Nat) (rec : NodeRecord α) (s : Node) (f : Option Node) (h : Handle),
    b.graph.records[o]? = some rec → rec.kind = .integrate s f → r.built s = some h →
      r.built ⟨o⟩ = some h ∨ i < o

/-- A stretch of a realization adds objects behind those there are, and what it gets to know are
nodes before place `bound`, placeholders together with their integrators. -/
structure Grew (bound : Nat) (r r' : Realization α (Network α)) : Prop where
  size : r.target.size ≤ r'.target.size
  objects : ∀ j < r.target.size, r'.target.objects[j]? = r.target.objects[j]?
  built : ∀ n h, r.built n = some h → r'.built n = some h
  fresh : ∀ n h, r'.built n = some h → r.built n = none → n.index < bound
  owned : ∀ (o : Nat) (rec : NodeRecord α) (s : Node) (f : Option Node) (h : Handle),
    b.graph.records[o]? = some rec → rec.kind = .integrate s f → r'.built s = some h →
      r.built s = none → r'.built ⟨o⟩ = some h
  behind : ∀ (o : Nat) (rec : NodeRecord α) (s : Node) (f : Option Node) (h : Handle),
    b.graph.records[o]? = some rec → rec.kind = .integrate s f → r'.built ⟨o⟩ = some h →
      r.built ⟨o⟩ = none → r.target.size ≤ h.id

variable {b} {bound : Nat} {r r' r'' : Realization α (Network α)}

theorem Grew.refl (bound : Nat) (r : Realization α (Network α)) : b.Grew bound r r where
  size := Nat.le_refl _
  objects _ _ := rfl
  built _ _ h := h
  fresh n h hb hn := by rw [hn] at hb; cases hb
  owned o rec s f h _ _ hb hn := by rw [hn] at hb; cases hb
  behind o rec s f h _ _ hb hn := by rw [hn] at hb; cases hb

theorem Grew.mono {bound' : Nat} (hg : b.Grew bound r r') (hle : bound ≤ bound') :
    b.Grew bound' r r' :=
  { hg with fresh := fun n h hb hn => Nat.lt_of_lt_of_le (hg.fresh n h hb hn) hle }

theorem Grew.trans (hg : b.Grew bound r r') (hg' : b.Grew bound r' r'') : b.Grew bound r r'' where
  size := Nat.le_trans hg.size hg'.size
  objects j hj := (hg'.objects j (Nat.lt_of_lt_of_le hj hg.size)).trans (hg.objects j hj)
  built n h hb := hg'.built n h (hg.built n h hb)
  fresh n h hb hn := by
    cases hm : r'.built n with
    | none => exact hg'.fresh n h hb hm
    | some k => exact hg.fresh n k hm hn
  owned o rec s f h hr hk hb hn := by
    cases hm : r'.built s with
    | none => exact hg'.owned o rec s f h hr hk hb hm
    | some k =>
      cases hb.symm.trans (hg'.built s k hm)
      exact hg'.built _ _ (hg.owned o rec s f h hr hk hm hn)
  behind o rec s f h hr hk hb hn := by
    cases hm : r'.built ⟨o⟩ with
    | none => exact Nat.le_trans hg.size (hg'.behind o rec s f h hr hk hb hm)
    | some k =>
      cases hb.symm.trans (hg'.built _ k hm)
      exact hg.behind o rec s f h hr hk hm hn

theorem Owned.grew {i : Nat} (ho : b.Owned r i) (hg : b.Grew bound r r') : b.Owned r' i := by
  intro o rec s f h hr hk hb
  cases hm : r.built s with
  | none => exact .inl (hg.owned o rec s f h hr hk hb hm)
  | some k =>
    cases hb.symm.trans (hg.built s k hm)
    exact (ho o rec s f h hr hk hm).imp_left (hg.built _ _)

theorem Owned.mono {i j : Nat} (ho : b.Owned r i) (hj : j ≤ i) : b.Owned r j := by
  intro o rec s f h hr hk hb
  exact (ho o rec s f h hr hk hb).imp_right (Nat.lt_of_le_of_lt hj)

omit [Scalar α] in
/-- An integrand that is known stays known. -/
theorem integrand_mono {f : Option Node} {g : Option Handle} (hf : f.map r.built = g.map some)
    (hb : ∀ n h, r.built n = some h → r'.built n = some h) : f.map r'.built = g.map some := by
  cases f with
  | none => exact hf
  | some f =>
    cases g with
    | none => cases hf
    | some g =>
      simp only [Option.map_some, Option.some.injEq] at hf ⊢
      exact hb _ _ hf

/-- An image stays where its object stays. -/
theorem Image.mono {n : Node} {h : Handle} (hi : b.Image r n h)
    (hb : ∀ n h, r.built n = some h → r'.built n = some h)
    (ho : r'.target.objects[h.id]? = r.target.objects[h.id]?) : b.Image r' n h := by
  cases hi with
  | configure hr hk hc hin hu => exact .configure hr hk hc hin (hb _ _ hu)
  | object hr hk hres hin hq hobj =>
    exact .object hr hk hres (hin.imp fun _ _ => hb _ _) hq (ho.trans hobj)
  | state hr hk ho' hk' hobj => exact .state hr hk ho' hk' (ho.trans hobj)
  | integrate hr hk hin hs hu hf hobj =>
    exact .integrate hr hk hin (hb _ _ hs) (hb _ _ hu) (integrand_mono hf hb) (ho.trans hobj)

/-- What was known before a stretch is right after it. -/
theorem Good.old (hr : b.Good r) (hg : b.Grew bound r r') {n : Node} {h : Handle}
    (hb : r.built n = some h) : r'.target.holds h = true ∧ b.Image r' n h := by
  have hh := hr.holds n h hb
  have ho := hg.objects h.id (Network.holds_lt hh)
  refine ⟨?_, (hr.image n h hb).mono hg.built ho⟩
  rw [Network.holds_iff] at hh ⊢
  rwa [ho]

/-- A stretch that only makes an object. -/
theorem Grew.create {q : Request α} {h : Handle} {t : Network α}
    (hc : r.target.create q = .ok (h, t)) (bound : Nat) :
    b.Grew bound r { r with target := t } := by
  obtain ⟨⟨-, rfl⟩, -⟩ := Network.create_eq_ok.1 hc
  refine ⟨?_, ?_, fun n h hb => hb, ?_, ?_, ?_⟩
  · simp [Network.push, Network.size]
  · intro j hj
    have hne : j ≠ r.target.objects.size := Nat.ne_of_lt hj
    simp only [Network.push]
    rw [Array.getElem?_push, if_neg hne]
  · intro n h hb hn
    cases hn.symm.trans hb
  · intro o rec s f h _ _ hb hn
    cases hn.symm.trans hb
  · intro o rec s f h _ _ hb hn
    cases hn.symm.trans hb

/-- A stretch that only gets to know a node which is no placeholder and, if it is an integrator, one
whose object is new. -/
theorem Grew.know {n : Node} {h : Handle} (hn : r.built n = none) (hlt : n.index < bound)
    (hs : ∀ (o : Nat) (rec : NodeRecord α) (s : Node) (f : Option Node),
      b.graph.records[o]? = some rec → rec.kind = .integrate s f → n ≠ s)
    (hi : ∀ (rec : NodeRecord α) (s : Node) (f : Option Node),
      b.graph.record? n = some rec → rec.kind = .integrate s f → r.target.size ≤ h.id) :
    b.Grew bound r { r with memo := (n, h) :: r.memo } := by
  refine ⟨Nat.le_refl _, fun j _ => rfl, ?_, ?_, ?_, ?_⟩
  · intro m k hm
    rw [Realization.built_cons]
    split
    · rename_i he
      subst he
      rw [hn] at hm
      cases hm
    · exact hm
  · intro m k hb hm
    rw [Realization.built_cons] at hb
    split at hb
    · rename_i he
      subst he
      exact hlt
    · rw [hm] at hb
      cases hb
  · intro o rec s f k hr hk hb hm
    rw [Realization.built_cons, if_neg (hs o rec s f hr hk).symm, hm] at hb
    cases hb
  · intro o rec s f k hr hk hb hm
    rw [Realization.built_cons] at hb
    split at hb
    · rename_i he
      subst he
      cases hb
      exact hi rec s f hr hk
    · rw [hm] at hb
      cases hb

/-- One more node is known, with an object that stands for it. -/
theorem Good.know {n : Node} {h : Handle} (hr : b.Good r) (hn : r.built n = none)
    (hh : r.target.holds h = true) (hsize : h.size = b.graph.sizeOf n)
    (hi : b.Image { r with memo := (n, h) :: r.memo } n h) :
    b.Good { r with memo := (n, h) :: r.memo } := by
  have hmono : ∀ m k, r.built m = some k →
      ({ r with memo := (n, h) :: r.memo } : Realization α (Network α)).built m = some k := by
    intro m k hm
    rw [Realization.built_cons]
    split
    · rename_i he
      subst he
      rw [hn] at hm
      cases hm
    · exact hm
  refine ⟨hr.reachable, ?_, ?_, ?_⟩
  · intro m k hm
    rw [Realization.built_cons] at hm
    split at hm
    · cases hm
      exact hh
    · exact hr.holds m k hm
  · intro m k hm
    rw [Realization.built_cons] at hm
    split at hm
    · rename_i he
      subst he
      cases hm
      exact hsize
    · exact hr.size m k hm
  · intro m k hm
    rw [Realization.built_cons] at hm
    split at hm
    · rename_i he
      subst he
      cases hm
      exact hi
    · exact (hr.image m k hm).mono hmono rfl

/-- One more object on the network. -/
theorem Good.create {q : Request α} {h : Handle} {t : Network α} (hr : b.Good r)
    (hc : r.target.create q = .ok (h, t)) : b.Good { r with target := t } := by
  have hg := Grew.create (b := b) (r := r) hc 0
  exact ⟨hr.reachable.create hc, fun n h hb => (hr.old hg hb).1, hr.size,
    fun n h hb => (hr.old hg hb).2⟩

/-- A loop closed at an object that no known integrator shares. -/
theorem Good.connect {h f : Handle} {t : Network α} (hr : b.Good r)
    (hc : r.target.connect h f = .ok t)
    (hne : ∀ (o : Nat) (rec : NodeRecord α) (s : Node) (g : Option Node) (k : Handle),
      b.graph.records[o]? = some rec → rec.kind = .integrate s g → r.built ⟨o⟩ = some k →
        k.id ≠ h.id) :
    b.Good { r with target := t } := by
  have hgrows := Network.connect_grows hc
  refine ⟨hr.reachable.connect hc, fun n k hb => hgrows.holds (hr.holds n k hb), hr.size, ?_⟩
  obtain ⟨-, -, input, ho, rfl⟩ := Network.connect_eq_ok.1 hc
  intro n k hb
  have hi := hr.image n k hb
  by_cases hk : k.id = h.id
  · cases hi with
    | configure hrec hke hc' hin hu => exact .configure hrec hke hc' hin hu
    | object hrec hke hres hin hq hobj =>
      rw [hk] at hobj
      have he := Option.some.inj (hobj.symm.trans ho)
      exact absurd (congrArg ObjectRecord.object he) (hq.not_feedback _ _)
    | state hrec hke ho' hk' hobj =>
      rw [hk] at hobj
      have he := congrArg ObjectRecord.size (Option.some.inj (hobj.symm.trans ho))
      have hlt := (Array.getElem?_eq_some_iff.1 ho).1
      have hnew : (r.target.objects.setIfInBounds h.id ⟨.feedback input (some f), h.size⟩)[k.id]? =
          some ⟨.feedback input (some f), k.size⟩ := by
        rw [hk, show k.size = h.size from he]
        simp [hlt]
      exact .state hrec hke ho' hk' hnew
    | integrate hrec hke => exact absurd hk (hne n.index _ _ _ k hrec hke hb)
  · refine hi.mono (fun _ _ h => h) ?_
    simp [Array.getElem?_setIfInBounds_ne (Ne.symm hk)]

end Blueprint

end SignalGraph
