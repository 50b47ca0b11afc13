import SignalGraph.Proofs.Graph.Building
import SignalGraph.Proofs.Lowering.Realized

namespace SignalGraph.Blueprint

open Realize Stateful

variable {α : Type} [Scalar α] {b : Blueprint α} {i : Nat} {r r' : Realization α (Network α)}
  {h : Handle}

/-- Only placeholders are placeholders of integrators. -/
theorem ne_placeholder {o : Nat} {n s : Node} {rec rec' : NodeRecord α} {f : Option Node}
    (hn : b.graph.record? n = some rec) (hne : rec.kind ≠ .state)
    (hr : b.graph.records[o]? = some rec') (hk : rec'.kind = .integrate s f) : n ≠ s := by
  rintro rfl
  obtain ⟨-, p, hp, hkind, -⟩ := b.integrate o rec' n f hr hk
  cases hn.symm.trans hp
  exact hne hkind

/-- A node that a stretch does not reach stays unknown. -/
theorem Grew.unknown (hg : b.Grew i r r') (hi : r.built ⟨i⟩ = none) : r'.built ⟨i⟩ = none := by
  cases hb : r'.built ⟨i⟩ with
  | none => rfl
  | some k => exact absurd (hg.fresh ⟨i⟩ k hb hi) (Nat.lt_irrefl i)

/-- The placeholder of an integrator that is not known yet is not known either. -/
theorem Owned.placeholder {rec : NodeRecord α} {s : Node} {f : Option Node} (ho : b.Owned r i)
    (hr : b.graph.records[i]? = some rec) (hk : rec.kind = .integrate s f)
    (hi : r.built ⟨i⟩ = none) : r.built s = none := by
  cases hs : r.built s with
  | none => rfl
  | some h =>
    rcases ho i rec s f h hr hk hs with hb | hlt
    · rw [hi] at hb
      cases hb
    · exact absurd hlt (Nat.lt_irrefl i)

/-- The nodes before a place, one after the other. -/
theorem places_good
    (ih : ∀ j < i, ∀ (r r' : Realization α (Network α)) (h : Handle), b.Good r → b.Owned r j →
      (place Target.network b.graph b.defaults j).run r = (.ok h, r') →
        b.Good r' ∧ b.Grew (j + 1) r r' ∧ r'.built ⟨j⟩ = some h)
    {ns : List Node} (hns : ∀ n ∈ ns, n.index < i) {hs : List Handle} (hr : b.Good r)
    (ho : b.Owned r i)
    (hp : (ns.mapM fun n => place Target.network b.graph b.defaults n.index).run r = (.ok hs, r')) :
    b.Good r' ∧ b.Owned r' i ∧ b.Grew i r r' ∧
      List.Forall₂ (fun n h => r'.built n = some h) ns hs := by
  obtain ⟨⟨hg, ho'⟩, hgrew, hall⟩ := mapM_ok (I := fun r => b.Good r ∧ b.Owned r i)
    (R := b.Grew i) (Q := fun n h r => r.built n = some h) (Grew.refl i) Grew.trans
    (fun hb hg => hg.built _ _ hb) (fun n hn h r r' hi hrun => by
      obtain ⟨hg, hgrew, hb⟩ :=
        ih n.index (hns n hn) r r' h hi.1 (hi.2.mono (Nat.le_of_lt (hns n hn))) hrun
      exact ⟨⟨hg, hi.2.grew hgrew⟩, hgrew.mono (hns n hn), hb⟩) ⟨hr, ho⟩ hp
  exact ⟨hg, ho', hgrew, hall⟩

/-- An element, its inputs being known. -/
theorem element_good {rec : NodeRecord α} {e : Element α} {config : ResolvedConfig α}
    {inputs : List Handle} (hr : b.Good r) (hi : r.built ⟨i⟩ = none)
    (hrec : b.graph.records[i]? = some rec) (hk : rec.kind = .element e)
    (hres : b.graph.resolve ⟨i⟩ e.configurable b.defaults = .ok config)
    (hin : List.Forall₂ (fun n h => r.built n = some h) rec.inputs inputs)
    (hc : (converse Target.network (e.lower inputs config)).run r = (.ok h, r'))
    (hsize : h.size = rec.size) :
    b.Good { r' with memo := (⟨i⟩, h) :: r'.memo } ∧
      b.Grew (i + 1) r { r' with memo := (⟨i⟩, h) :: r'.memo } := by
  have he := b.element i rec e hrec hk
  have hs : h.size = b.graph.sizeOf ⟨i⟩ :=
    hsize.trans (Graph.sizeOf_record (n := ⟨i⟩) hrec).symm
  have hne : ∀ (o : Nat) (rec' : NodeRecord α) (s : Node) (f : Option Node),
      b.graph.records[o]? = some rec' → rec'.kind = .integrate s f → (⟨i⟩ : Node) ≠ s :=
    fun o rec' s f => ne_placeholder hrec (by simp [hk])
  have hno : ∀ (rec' : NodeRecord α) (s : Node) (f : Option Node),
      b.graph.record? ⟨i⟩ = some rec' → rec'.kind ≠ .integrate s f := by
    intro rec' s f hr' hk'
    cases hrec.symm.trans hr'
    rw [hk] at hk'
    cases hk'
  rw [he] at hc
  rcases BuiltinKind.converse_ok hc with ⟨hkind, ⟨rest, rfl⟩, rfl⟩ | ⟨q, t, hq, hcreate, rfl⟩
  · obtain ⟨n, ns, hn, hns, hinputs⟩ := List.forall₂_cons_right_iff.1 hin
    have hgrew := Grew.know (b := b) (h := h) hi (Nat.lt_succ_self i) hne
      (fun rec' s f hr' hk' => absurd hk' (hno rec' s f hr'))
    refine ⟨hr.know hi (hr.holds n h hn) hs ?_, hgrew⟩
    exact .configure hrec hk hkind hinputs (hgrew.built n h hn)
  · have hgood := hr.create hcreate
    obtain ⟨hid, hobj, -⟩ := Network.create_object hcreate
    have hgrew := (Grew.create (b := b) hcreate (i + 1)).trans
      (Grew.know (r := { r with target := t }) (h := h) hi (Nat.lt_succ_self i) hne
        (fun rec' s f hr' hk' => absurd hk' (hno rec' s f hr')))
    refine ⟨hgood.know hi (Network.holds_iff.2 ⟨_, hobj, rfl⟩) hs ?_, hgrew⟩
    exact .object hrec hk hres (hin.imp fun n k hb => hgrew.built n k hb) hq hobj

/-- The realization in which the feedback object of an integrator stands for its placeholder. -/
def opened (r : Realization α (Network α)) (t : Network α) (s : Node) (h : Handle) :
    Realization α (Network α) :=
  { r with target := t, memo := (s, h) :: r.memo }

/-- The integrator at place `i` gets its feedback object, which makes the network `t`: its input `n`
is known and neither it nor its placeholder is. -/
structure Opening (b : Blueprint α) (r : Realization α (Network α)) (i : Nat) (rec : NodeRecord α)
    (s n : Node) (f : Option Node) (u h : Handle) (t : Network α) : Prop where
  record : b.graph.records[i]? = some rec
  kind : rec.kind = .integrate s f
  inputs : rec.inputs = [n]
  input : r.built n = some u
  unknown : r.built ⟨i⟩ = none
  placeholder : r.built s = none
  create : r.target.create (.feedback u) = .ok (h, t)

namespace Opening

variable {rec : NodeRecord α} {s n : Node} {f : Option Node} {u : Handle} {t : Network α}
  {q : Realization α (Network α)} {bound : Nat}

omit [Scalar α] in
theorem opened_built {m : Node} :
    (opened r t s h).built m = if m = s then some h else r.built m :=
  Realization.built_cons { r with target := t } s m h

theorem of_run {us : List Handle} (ho : b.Owned r i) (hi : r.built ⟨i⟩ = none)
    (hrec : b.graph.records[i]? = some rec) (hk : rec.kind = .integrate s f)
    (hin : List.Forall₂ (fun n h => r.built n = some h) rec.inputs (u :: us))
    (hc : (onTarget (Target.network.create (.feedback u))).run r = (.ok h, r')) :
    ∃ n t, b.Opening r i rec s n f u h t ∧ r' = { r with target := t } := by
  obtain ⟨⟨n, hn, -⟩, -⟩ := b.integrate i rec s f hrec hk
  obtain ⟨t, hcreate, rfl⟩ := create_ok.1 hc
  rw [hn] at hin
  obtain ⟨hu, -⟩ := List.forall₂_cons.1 hin
  exact ⟨n, t, ⟨hrec, hk, hn, hu, hi, ho.placeholder hrec hk hi, hcreate⟩, rfl⟩

variable (ho : b.Opening r i rec s n f u h t)

include ho

theorem ne_self : (⟨i⟩ : Node) ≠ s := ne_placeholder ho.record (by simp [ho.kind]) ho.record ho.kind

/-- The object has the size of the integrator and so of the placeholder. -/
theorem size (hr : b.Good r) : h.size = rec.size := by
  obtain ⟨⟨n', hin, hsize⟩, -⟩ := b.integrate i rec s f ho.record ho.kind
  cases ho.inputs.symm.trans hin
  obtain ⟨⟨hh, -⟩, -⟩ := Network.create_eq_ok.1 ho.create
  rw [← hsize, ← hr.size n u ho.input, hh]
  rfl

theorem built_of {m : Node} {k : Handle} (hb : r.built m = some k) :
    (opened r t s h).built m = some k := by
  rw [opened_built, if_neg ?_]
  · exact hb
  · rintro rfl
    rw [ho.placeholder] at hb
    cases hb

theorem unknown_opened : (opened r t s h).built ⟨i⟩ = none := by
  rw [opened_built, if_neg ho.ne_self]
  exact ho.unknown

theorem good (hr : b.Good r) : b.Good (opened r t s h) := by
  obtain ⟨-, p, hp, hpk, hps⟩ := b.integrate i rec s f ho.record ho.kind
  obtain ⟨-, hobj, -⟩ := Network.create_object ho.create
  have hsize : h.size = b.graph.sizeOf s := by
    rw [Graph.sizeOf_record hp, hps, ho.size hr]
  exact (hr.create ho.create).know ho.placeholder (Network.holds_iff.2 ⟨_, hobj, rfl⟩) hsize
    (.state hp hpk ho.record ho.kind hobj)

theorem owned (hr : b.Owned r i) {j : Nat} (hj : j < i) : b.Owned (opened r t s h) j := by
  intro o rec' s' f' k hr' hk' hb
  rw [opened_built] at hb
  split at hb
  · rename_i he
    subst he
    exact .inr (b.owner i o rec rec' _ _ _ ho.record hr' ho.kind hk' ▸ hj)
  · rcases hr o rec' s' f' k hr' hk' hb with hb' | hlt
    · exact .inl (ho.built_of hb')
    · exact .inr (Nat.lt_trans hj hlt)

/-- No integrator that is known after the integrand shares the object. -/
theorem apart (hr : b.Good r) (hg : b.Grew bound (opened r t s h) q) {o : Nat}
    {rec' : NodeRecord α} {s' : Node} {f' : Option Node} {k : Handle}
    (hr' : b.graph.records[o]? = some rec') (hk' : rec'.kind = .integrate s' f')
    (hb : q.built ⟨o⟩ = some k) : k.id ≠ h.id := by
  obtain ⟨hid, -, hsize⟩ := Network.create_object ho.create
  cases hm : (opened r t s h).built ⟨o⟩ with
  | none =>
    have hle := hg.behind o rec' s' f' k hr' hk' hb hm
    simp only [opened] at hle
    omega
  | some k' =>
    cases hb.symm.trans (hg.built _ _ hm)
    have hos : (⟨o⟩ : Node) ≠ s :=
      ne_placeholder (n := ⟨o⟩) hr' (by simp [hk']) ho.record ho.kind
    rw [opened_built, if_neg hos] at hm
    have hlt := Network.holds_lt (hr.holds _ _ hm)
    omega

/-- The object is still open after the integrand, with the input that it got. -/
theorem open_object (hg : b.Grew bound (opened r t s h) q) :
    q.target.objects[h.id]? = some ⟨.feedback u none, h.size⟩ := by
  obtain ⟨hid, hobj, hsize⟩ := Network.create_object ho.create
  have hlt : h.id < (opened r t s h).target.size := by
    simp only [opened]
    omega
  exact (hg.objects h.id hlt).trans hobj

end Opening

/-- The realization in which the feedback object of an integrator, on the network `w` in which its
loop is closed, stands for the integrator too. -/
def closing (q : Realization α (Network α)) (w : Network α) (i : Nat) (h : Handle) :
    Realization α (Network α) :=
  { q with target := w, memo := (⟨i⟩, h) :: q.memo }

/-- The integrator at place `i` from the creation of its feedback object on: `q` is the realization
after its integrand and `w` the network once its loop is closed, which changes that object only. -/
structure Closing (b : Blueprint α) (r : Realization α (Network α)) (i : Nat) (rec : NodeRecord α)
    (s n : Node) (f : Option Node) (u h : Handle) (t : Network α) (q : Realization α (Network α))
    (g : Option Handle) (w : Network α) : Prop
    extends Opening b r i rec s n f u h t where
  grew : b.Grew i (opened r t s h) q
  integrand : f.map q.built = g.map some
  size_eq : w.size = q.target.size
  objects : ∀ j, j ≠ h.id → w.objects[j]? = q.target.objects[j]?
  object : w.objects[h.id]? = some ⟨.feedback u g, h.size⟩

namespace Closing

variable {rec : NodeRecord α} {s n : Node} {f : Option Node} {u : Handle} {t w : Network α}
  {q : Realization α (Network α)} {g : Option Handle} (hc : b.Closing r i rec s n f u h t q g w)

include hc

/-- Nodes that are known after the integrand stay known. -/
theorem built {m : Node} {k : Handle} (hb : q.built m = some k) :
    (closing q w i h).built m = some k := by
  rw [closing, Realization.built_cons { q with target := w }, if_neg ?_]
  · exact hb
  · rintro rfl
    rw [hc.grew.unknown hc.unknown_opened] at hb
    cases hb

theorem built_placeholder : q.built s = some h :=
  hc.grew.built s h (by rw [Opening.opened_built, if_pos rfl])

omit [Scalar α] hc in
theorem built_self : (closing q w i h).built ⟨i⟩ = some h := by
  rw [closing, Realization.built_cons { q with target := w }, if_pos rfl]

/-- What the whole stretch gets to know: the integrator, its placeholder and the nodes of the
integrand. -/
theorem fresh {m : Node} {k : Handle} (hb : (closing q w i h).built m = some k)
    (hm : r.built m = none) :
    (m = ⟨i⟩ ∧ k = h) ∨ (m = s ∧ k = h) ∨
      (q.built m = some k ∧ (opened r t s h).built m = none) := by
  rw [closing, Realization.built_cons { q with target := w }] at hb
  split at hb
  · rename_i he
    cases hb
    exact .inl ⟨he, rfl⟩
  · by_cases hms : m = s
    · subst hms
      cases hc.built_placeholder.symm.trans hb
      exact .inr (.inl ⟨rfl, rfl⟩)
    · refine .inr (.inr ⟨hb, ?_⟩)
      rw [Opening.opened_built, if_neg hms]
      exact hm

theorem good (hr : b.Good r) (hq : b.Good { q with target := w }) :
    b.Good (closing q w i h) := by
  have hsize : h.size = b.graph.sizeOf ⟨i⟩ :=
    (hc.size hr).trans (Graph.sizeOf_record (n := ⟨i⟩) hc.record).symm
  have hf : f.map (closing q w i h).built = g.map some :=
    integrand_mono hc.integrand fun m k => hc.built
  exact hq.know (hc.grew.unknown hc.unknown_opened) (Network.holds_iff.2 ⟨_, hc.object, rfl⟩) hsize
    (.integrate hc.record hc.kind hc.inputs (hc.built hc.built_placeholder)
      (hc.built (hc.grew.built _ _ (hc.built_of hc.input))) hf hc.object)

theorem grows : b.Grew (i + 1) r (closing q w i h) := by
  obtain ⟨hid, -, hsize⟩ := Network.create_object hc.create
  have hle : r.target.size < q.target.size := by
    have hle := hc.grew.size
    simp only [opened] at hle
    omega
  refine ⟨hc.size_eq ▸ Nat.le_of_lt hle, ?_,
    fun m k hb => hc.built (hc.grew.built m k (hc.built_of hb)), ?_, ?_, ?_⟩
  · intro j hj
    have hlt : j < (opened r t s h).target.size := by
      simp only [opened]
      omega
    have hcr := (Grew.create (b := b) hc.create 0).objects j hj
    exact (hc.objects j (by omega)).trans ((hc.grew.objects j hlt).trans hcr)
  · intro m k hb hm
    rcases hc.fresh hb hm with ⟨rfl, -⟩ | ⟨rfl, -⟩ | ⟨hbq, hmq⟩
    · exact Nat.lt_succ_self i
    · exact Nat.lt_succ_of_lt (Graph.placeholder_lt (n := ⟨i⟩) hc.record hc.kind)
    · exact Nat.lt_succ_of_lt (hc.grew.fresh m k hbq hmq)
  · intro o rec' s' f' k hr' hk' hb hm
    rcases hc.fresh hb hm with ⟨hs, -⟩ | ⟨rfl, rfl⟩ | ⟨hbq, hmq⟩
    · exact absurd hs.symm (ne_placeholder hc.record (by simp [hc.kind]) hr' hk')
    · obtain rfl := b.owner i o rec rec' _ _ _ hc.record hr' hc.kind hk'
      exact built_self
    · exact hc.built (hc.grew.owned o rec' s' f' k hr' hk' hbq hmq)
  · intro o rec' s' f' k hr' hk' hb hm
    rcases hc.fresh hb hm with ⟨-, rfl⟩ | ⟨hs, -⟩ | ⟨hbq, hmq⟩
    · exact Nat.le_of_eq hid.symm
    · exact absurd hs (ne_placeholder (n := ⟨o⟩) hr' (by simp [hk']) hc.record hc.kind)
    · have hbehind := hc.grew.behind o rec' s' f' k hr' hk' hbq hmq
      simp only [opened] at hbehind
      omega

end Closing

/-- The loop of an integrator closed on its integrand. -/
theorem Opening.connect {rec : NodeRecord α} {s n f : Node} {u rate : Handle} {t w : Network α}
    {q : Realization α (Network α)} (ho : b.Opening r i rec s n (some f) u h t)
    (hg : b.Grew i (opened r t s h) q) (hf : q.built f = some rate)
    (hw : q.target.connect h rate = .ok w) :
    b.Closing r i rec s n (some f) u h t q (some rate) w := by
  obtain ⟨-, -, input, hobj, rfl⟩ := Network.connect_eq_ok.1 hw
  cases hobj.symm.trans (ho.open_object hg)
  exact { ho with
    grew := hg
    integrand := by simp [hf]
    size_eq := by simp [Network.size]
    objects := fun j hj => by simp [Array.getElem?_setIfInBounds_ne hj.symm]
    object := by simp [(Array.getElem?_eq_some_iff.1 hobj).1] }

/-- The realization of a place keeps what is known right and gets to know the place. -/
theorem place_good (hr : b.Good r) (ho : b.Owned r i)
    (hp : (place Target.network b.graph b.defaults i).run r = (.ok h, r')) :
    b.Good r' ∧ b.Grew (i + 1) r r' ∧ r'.built ⟨i⟩ = some h := by
  induction i using Nat.strongRecOn generalizing r r' h with
  | ind i ih =>
    have ih' : ∀ j < i, ∀ (r r' : Realization α (Network α)) (h : Handle), b.Good r → b.Owned r j →
        (place Target.network b.graph b.defaults j).run r = (.ok h, r') →
          b.Good r' ∧ b.Grew (j + 1) r r' ∧ r'.built ⟨j⟩ = some h :=
      fun j hj r r' h hr ho hp => ih j hj hr ho hp
    cases place_ok.1 hp with
    | known hb => exact ⟨hr, .refl _ _, hb⟩
    | @element rec e config inputs _ r₁ r₂ hi hrec hk _ hres hin hc hsize =>
      obtain ⟨hr₁, -, hg₁, hall⟩ := places_good ih' (Graph.inputs_lt (n := ⟨i⟩) hrec) hr ho hin
      obtain ⟨hgood, hgrew⟩ := element_good hr₁ (hg₁.unknown hi) hrec hk hres hall hc hsize
      refine ⟨hgood, (hg₁.mono (Nat.le_succ i)).trans hgrew, ?_⟩
      rw [Realization.built_cons, if_pos rfl]
    | @integrate rec s u us _ r₁ r₂ hi hrec hk hin hc =>
      obtain ⟨hr₁, ho₁, hg₁, hall⟩ := places_good ih' (Graph.inputs_lt (n := ⟨i⟩) hrec) hr ho hin
      obtain ⟨n, t, hopen, rfl⟩ := Opening.of_run ho₁ (hg₁.unknown hi) hrec hk hall hc
      have hclose : b.Closing r₁ i rec s n none u h t (opened r₁ t s h) none t :=
        { hopen with
          grew := .refl _ _
          integrand := rfl
          size_eq := rfl
          objects := fun _ _ => rfl
          object := (Network.create_object hopen.create).2.1 }
      exact ⟨hclose.good hr₁ (hopen.good hr₁), (hg₁.mono (Nat.le_succ i)).trans hclose.grows,
        Closing.built_self (q := opened r₁ t s h) (w := t)⟩
    | @closed rec s f u us _ rate r₁ r₂ r₃ r₄ hi hrec hk hin hc hf hcl =>
      obtain ⟨hr₁, ho₁, hg₁, hall⟩ := places_good ih' (Graph.inputs_lt (n := ⟨i⟩) hrec) hr ho hin
      obtain ⟨n, t, hopen, rfl⟩ := Opening.of_run ho₁ (hg₁.unknown hi) hrec hk hall hc
      have hfi := Graph.integrand_lt (n := ⟨i⟩) hrec hk
      obtain ⟨hr₃, hg₃, hrate⟩ := ih' f.index hfi (opened r₁ t s h) r₃ rate (hopen.good hr₁)
        (hopen.owned ho₁ hfi) hf
      obtain ⟨w, hconnect, rfl⟩ := connect_ok.1 hcl
      have hclose := hopen.connect (hg₃.mono hfi) hrate hconnect
      have hgood := hr₃.connect hconnect fun o rec' s' g k => hopen.apart hr₁ hg₃
      exact ⟨hclose.good hr₁ hgood, (hg₁.mono (Nat.le_succ i)).trans hclose.grows,
        Closing.built_self⟩

end SignalGraph.Blueprint
