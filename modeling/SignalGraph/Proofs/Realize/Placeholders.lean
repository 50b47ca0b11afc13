import SignalGraph.Proofs.Realize.Progress

namespace SignalGraph

open Realize Realization Stateful

variable {α : Type}

namespace Graph

/-- A placeholder is bound behind the nodes: they lead to its integrator. -/
def Binds (g : Graph α) (ns : List Node) (s : Node) : Prop :=
  ∃ o, g.Owns o s ∧ g.Reached ns ⟨o⟩

/-- Nodes that lead to a placeholder, not through the integrand of its own integrator. -/
inductive Escapes (g : Graph α) (s : Node) : Node → Prop
  | state {rec : NodeRecord α} : g.record? s = some rec → rec.kind = .state → Escapes g s s
  | input {n m : Node} : m ∈ g.inputsOf n → Escapes g s m → Escapes g s n
  | integrand {n f : Node} :
    g.integrandOf n = some f → ¬g.Owns n.index s → Escapes g s f → Escapes g s n

/-- Nodes that, one after the other, come to a placeholder before they enter its integrator. -/
inductive UsedEarly (g : Graph α) (s : Node) : List Node → Prop
  | state {rec : NodeRecord α} {ns : List Node} :
    g.record? s = some rec → rec.kind = .state → UsedEarly g s (s :: ns)
  | input {n : Node} {rec : NodeRecord α} {ns : List Node} :
    g.record? n = some rec → rec.kind ≠ .state → UsedEarly g s rec.inputs → UsedEarly g s (n :: ns)
  | integrand {n p f : Node} {rec : NodeRecord α} {ns : List Node} :
    g.record? n = some rec → rec.kind = .integrate p (some f) → p ≠ s → ¬g.Binds rec.inputs s →
    UsedEarly g s [f] → UsedEarly g s (n :: ns)
  | later {n : Node} {ns : List Node} :
    ¬g.Binds [n] s → UsedEarly g s ns → UsedEarly g s (n :: ns)

namespace Escapes

variable {g : Graph α} {s n : Node}

theorem is_placeholder (h : g.Escapes s n) : ∃ rec, g.record? s = some rec ∧ rec.kind = .state := by
  induction h with
  | state hr hk => exact ⟨_, hr, hk⟩
  | input _ _ ih => exact ih
  | integrand _ _ _ ih => exact ih

theorem reached (h : g.Escapes s n) : g.Reached [n] s := by
  induction h with
  | state => exact .root List.mem_cons_self
  | input hm _ ih =>
    refine ih.through fun k hk => ?_
    rw [List.mem_singleton.1 hk]
    exact .input (.root List.mem_cons_self) hm
  | integrand hf _ _ ih =>
    refine ih.through fun k hk => ?_
    rw [List.mem_singleton.1 hk]
    exact .integrand (.root List.mem_cons_self) hf

end Escapes

namespace UsedEarly

variable {g : Graph α} {s n : Node} {rec : NodeRecord α} {ns : List Node}

theorem nil : ¬g.UsedEarly s [] := nofun

theorem head (h : g.UsedEarly s [n]) : g.UsedEarly s (n :: ns) := by
  cases h with
  | state hr hk => exact .state hr hk
  | input hr hk hin => exact .input hr hk hin
  | integrand hr hk hne hin hf => exact .integrand hr hk hne hin hf
  | later _ hns => exact absurd hns nil

theorem cons_iff :
    g.UsedEarly s (n :: ns) ↔ g.UsedEarly s [n] ∨ ¬g.Binds [n] s ∧ g.UsedEarly s ns := by
  constructor
  · intro h
    cases h with
    | state hr hk => exact .inl (.state hr hk)
    | input hr hk hin => exact .inl (.input hr hk hin)
    | integrand hr hk hne hin hf => exact .inl (.integrand hr hk hne hin hf)
    | later hn hns => exact .inr ⟨hn, hns⟩
  · rintro (h | ⟨hn, hns⟩)
    · exact h.head
    · exact .later hn hns

theorem exists_mem (h : g.UsedEarly s ns) : ∃ n ∈ ns, g.UsedEarly s [n] := by
  induction ns with
  | nil => exact absurd h nil
  | cons n ns ih =>
    rcases cons_iff.1 h with h | ⟨-, h⟩
    · exact ⟨n, List.mem_cons_self, h⟩
    · obtain ⟨m, hm, h⟩ := ih h
      exact ⟨m, List.mem_cons_of_mem _ hm, h⟩

theorem is_placeholder (h : g.UsedEarly s ns) : ∃ rec, g.record? s = some rec ∧ rec.kind = .state := by
  induction h with
  | state hr hk => exact ⟨_, hr, hk⟩
  | input _ _ _ ih => exact ih
  | integrand _ _ _ _ _ ih => exact ih
  | later _ _ ih => exact ih

theorem reached (h : g.UsedEarly s ns) : g.Reached ns s := by
  induction h with
  | state => exact .root List.mem_cons_self
  | input hr _ _ ih =>
    refine ih.through fun m hm => .input (.root List.mem_cons_self) ?_
    rwa [inputsOf, hr]
  | integrand hr hk _ _ _ ih =>
    refine ih.through fun m hm => ?_
    rw [List.mem_singleton.1 hm]
    exact .integrand (.root List.mem_cons_self) (integrandOf_eq_some.2 ⟨_, _, hr, hk⟩)
  | later _ _ ih => exact ih.through fun m hm => .root (List.mem_cons_of_mem _ hm)

/-- A placeholder that is used early is used outside the integrand of its integrator. -/
theorem escapes (h : g.UsedEarly s ns) : ∃ n ∈ ns, g.Escapes s n := by
  induction h with
  | state hr hk => exact ⟨s, List.mem_cons_self, .state hr hk⟩
  | @input n rec ns hr _ _ ih =>
    obtain ⟨m, hm, he⟩ := ih
    refine ⟨n, List.mem_cons_self, .input ?_ he⟩
    rwa [inputsOf, hr]
  | @integrand n p f rec ns hr hk hne _ _ ih =>
    obtain ⟨m, hm, he⟩ := ih
    rw [List.mem_singleton.1 hm] at he
    refine ⟨n, List.mem_cons_self, .integrand (integrandOf_eq_some.2 ⟨rec, p, hr, hk⟩) ?_ he⟩
    rintro ⟨rec', f', hr', hk'⟩
    cases hr.symm.trans hr'
    cases hk.symm.trans hk'
    exact hne rfl
  | later _ _ ih =>
    obtain ⟨m, hm, he⟩ := ih
    exact ⟨m, List.mem_cons_of_mem _ hm, he⟩

theorem element_iff {e : Element α} (hr : g.record? n = some rec) (hk : rec.kind = .element e) :
    g.UsedEarly s [n] ↔ g.UsedEarly s rec.inputs := by
  constructor
  · intro h
    cases h with
    | state hr' hk' =>
      cases hr.symm.trans hr'
      cases hk.symm.trans hk'
    | input hr' _ hin =>
      cases hr.symm.trans hr'
      exact hin
    | integrand hr' hk' =>
      cases hr.symm.trans hr'
      cases hk.symm.trans hk'
    | later _ hns => exact absurd hns nil
  · exact .input hr (by rw [hk]; exact nofun)

theorem integrate_iff {p : Node} {f : Option Node} (hr : g.record? n = some rec)
    (hk : rec.kind = .integrate p f) :
    g.UsedEarly s [n] ↔ g.UsedEarly s rec.inputs ∨
      ∃ m, f = some m ∧ p ≠ s ∧ ¬g.Binds rec.inputs s ∧ g.UsedEarly s [m] := by
  constructor
  · intro h
    cases h with
    | state hr' hk' =>
      cases hr.symm.trans hr'
      cases hk.symm.trans hk'
    | input hr' _ hin =>
      cases hr.symm.trans hr'
      exact .inl hin
    | integrand hr' hk' hne hin hf =>
      cases hr.symm.trans hr'
      cases hk.symm.trans hk'
      exact .inr ⟨_, rfl, hne, hin, hf⟩
    | later _ hns => exact absurd hns nil
  · rintro (h | ⟨m, rfl, hne, hin, hf⟩)
    · exact .input hr (by rw [hk]; exact nofun) h
    · exact .integrand hr hk hne hin hf

end UsedEarly

/-- What is in scope is used early only where a placeholder of an open loop is. -/
theorem Scoped.usedEarly {g : Graph α} {allowed : Element α → Prop} {opens within : List Node}
    {s n : Node} (h : g.Scoped within n) (hg : g.Regular allowed opens)
    (hwithin : ∀ p ∈ within, ∃ rec, g.record? p = some rec ∧ rec.kind = .state)
    (hs : g.UsedEarly s [n]) : s ∈ within := by
  induction h with
  | @state within p hp =>
    obtain ⟨rec, hr, hk⟩ := hwithin p hp
    cases hs with
    | state => exact hp
    | input hr' hk' =>
      cases hr.symm.trans hr'
      exact absurd hk hk'
    | integrand hr' hk' =>
      cases hr.symm.trans hr'
      cases hk.symm.trans hk'
    | later _ hns => exact absurd hns UsedEarly.nil
  | element hr hk _ ih =>
    obtain ⟨m, hm, hs⟩ := ((UsedEarly.element_iff hr hk).1 hs).exists_mem
    exact ih m hm hwithin hs
  | integrate hr hk _ ih =>
    rcases (UsedEarly.integrate_iff hr hk).1 hs with hs | ⟨_, ⟨⟩, -⟩
    obtain ⟨m, hm, hs⟩ := hs.exists_mem
    exact ih m hm hwithin hs
  | @closed within n p f rec hr hk _ _ ih ihf =>
    rcases (UsedEarly.integrate_iff hr hk).1 hs with hs | ⟨_, ⟨⟩, hne, -, hs⟩
    · obtain ⟨m, hm, hs⟩ := hs.exists_mem
      exact ih m hm hwithin hs
    · have hp : ∀ q ∈ p :: within, ∃ rec, g.record? q = some rec ∧ rec.kind = .state := by
        intro q hq
        rcases List.mem_cons.1 hq with rfl | hq
        · obtain ⟨u, f', -, hstate⟩ := hg.owns ⟨rec, some f, hr, hk⟩
          exact ⟨_, hstate, rfl⟩
        · exact hwithin q hq
      rcases List.mem_cons.1 (ihf hp hs) with rfl | hs
      · exact absurd rfl hne
      · exact hs

end Graph

variable [Scalar α] {g : Graph α} {opens : List Node} {defaults : Defaults α} {bound : Nat}
  {r r' : Realization α (Network α)}

namespace Realization

/-- A realization in the middle of loops, with all that was written down since its start. -/
structure Entered (g : Graph α) (bound : Nat) (r : Realization α (Network α)) : Prop
    extends r.Opened g [] bound where
  logged : ∃ (first : Network α) (b : Nat) (ws : List Write), Logged g b (.start first) r ws

namespace Entered

variable {ns : List Node} {es : List Event} {ks : List Handle}

theorem mono {bound' : Nat} (h : r.Entered g bound) (hle : bound' ≤ bound) : r.Entered g bound' :=
  ⟨h.toOpened.mono hle, h.logged⟩

theorem extend {b : Nat} {ws : List Write} (h : r.Entered g bound) (ho : r'.Opened g [] bound)
    (hl : Logged g b r r' ws) : r'.Entered g bound := by
  obtain ⟨first, b', ws', hl'⟩ := h.logged
  exact ⟨ho, first, _, _, (hl'.mono (Nat.le_max_left b' b)).append (hl.mono (Nat.le_max_right b' b))⟩

theorem traced (h : r.Entered g bound) (hg : g.Regular Element.IsBuiltin opens)
    (ht : Traced Target.network g defaults ns r es ks r') (hns : ∀ n ∈ ns, n.index < bound) :
    r'.Entered g bound := by
  obtain ⟨ws, hw⟩ := ht.written hg hns h.owned
  exact h.extend (h.toOpened.traced hg ht hns) hw.toLogged

/-- What a known node leads to is known. -/
theorem reached (h : r.Entered g bound) (hg : g.Regular Element.IsBuiltin opens) {n m : Node}
    (hn : ∃ k, r.built n = some k) (hm : g.Reached [n] m) : ∃ k, r.built m = some k := by
  obtain ⟨_, _, _, hl⟩ := h.logged
  exact hl.reached_built hg (fun m hm => List.mem_singleton.1 hm ▸ hn) hm

/-- The placeholder of a known integrator is bound. -/
theorem placeholder (h : r.Entered g bound) (hg : g.Regular Element.IsBuiltin opens) {o : Nat}
    {s : Node} (ho : g.Owns o s) (hb : ∃ k, r.built ⟨o⟩ = some k) : ∃ k, r.built s = some k := by
  obtain ⟨_, _, _, hl⟩ := h.logged
  obtain ⟨rec, f, hr, hk⟩ := ho
  obtain ⟨k, hb⟩ := hb
  exact ⟨k, (hl.integrator_built hg hb hr hk).1⟩

/-- The placeholders that nodes bind are those of the integrators that they lead to. -/
theorem unbound_iff (h : r.Entered g bound) (hg : g.Regular Element.IsBuiltin opens)
    (ht : Traced Target.network g defaults ns r es ks r') (hns : ∀ n ∈ ns, n.index < bound)
    {s : Node} {rec : NodeRecord α} (hr : g.record? s = some rec) (hk : rec.kind = .state) :
    r'.built s = none ↔ r.built s = none ∧ ¬g.Binds ns s := by
  obtain ⟨ws, hw⟩ := ht.written hg hns h.owned
  have h' := h.traced hg ht hns
  constructor
  · intro hs
    refine ⟨?_, ?_⟩
    · cases hb : r.built s with
      | none => rfl
      | some k => rw [hw.keeps _ _ hb] at hs; cases hs
    · rintro ⟨o, ho, hreached⟩
      obtain ⟨_, _, _, hl⟩ := h'.logged
      have hroots : ∀ n ∈ ns, ∃ k, r'.built n = some k := fun n hn => forall₂_mem_left hw.answers hn
      obtain ⟨k, hb⟩ := h'.placeholder hg ho (hl.reached_built hg hroots hreached)
      rw [hb] at hs
      cases hs
  · rintro ⟨hs, hnot⟩
    cases hb : r'.built s with
    | none => rfl
    | some k =>
      rcases hw.built_iff.1 hb with hb | ⟨w, hmem, rfl, -⟩
      · rw [hs] at hb
        cases hb
      · have hreached := ht.reached
        rw [← hw.events] at hreached
        cases hw.entries w hmem with
        | element hr' hk' =>
          cases hr.symm.trans hr'
          cases hk.symm.trans hk'
        | @placeholder n _ _ _ _ rec' f hr' hk' =>
          have he := hreached _ (Logged.mem_events hmem (List.mem_singleton_self _))
          exact absurd ⟨n.index, ⟨rec', f, hr', hk'⟩, he⟩ hnot
        | integrate hr' hk' =>
          cases hr.symm.trans hr'
          cases hk.symm.trans hk'
        | closed hr' hk' =>
          cases hr.symm.trans hr'
          cases hk.symm.trans hk'

end Entered

end Realization

namespace Realize

section

variable {σ : Type} {t : Target α σ} {n : Node} {rec : NodeRecord α} {e : RealizeError}
  {q q' : Realization α σ}

omit [Scalar α]

/-- A placeholder that is not bound is refused. -/
theorem place_state (hb : q.built n = none) (hr : g.record? n = some rec) (hk : rec.kind = .state) :
    (place t g defaults n.index).run q = (.error .unboundState, q) := by
  have hrec : g.records[n.index]? = some rec := hr
  rw [place_eq, bind_of_ok (get_ok.2 ⟨rfl, rfl⟩), hb, hrec]
  simp only [hk]
  rfl

theorem place_element_inputs {el : Element α} {config : ResolvedConfig α} (hb : q.built n = none)
    (hr : g.record? n = some rec) (hk : rec.kind = .element el)
    (ho : g.checkOverlay n defaults = .ok ()) (hres : g.resolve n el.configurable defaults = .ok config)
    (hin : (rec.inputs.mapM fun m => place t g defaults m.index).run q = (.error e, q')) :
    (place t g defaults n.index).run q = (.error e, q') := by
  have hrec : g.records[n.index]? = some rec := hr
  rw [place_eq, bind_of_ok (get_ok.2 ⟨rfl, rfl⟩), hb, hrec]
  simp only [hk]
  rw [bind_of_ok (ofParams_ok.2 ⟨ho, rfl⟩), bind_of_ok (ofParams_ok.2 ⟨hres, rfl⟩)]
  exact bind_of_error hin

theorem place_integrate_inputs {p : Node} {f : Option Node} (hb : q.built n = none)
    (hr : g.record? n = some rec) (hk : rec.kind = .integrate p f)
    (hin : (rec.inputs.mapM fun m => place t g defaults m.index).run q = (.error e, q')) :
    (place t g defaults n.index).run q = (.error e, q') := by
  have hrec : g.records[n.index]? = some rec := hr
  rw [place_eq, bind_of_ok (get_ok.2 ⟨rfl, rfl⟩), hb, hrec]
  simp only [hk]
  exact bind_of_error hin

theorem place_integrand {p f : Node} {u k : Handle} {us : List Handle} {q₁ q₂ : Realization α σ}
    (hb : q.built n = none) (hr : g.record? n = some rec) (hk : rec.kind = .integrate p (some f))
    (hin : (rec.inputs.mapM fun m => place t g defaults m.index).run q = (.ok (u :: us), q₁))
    (hc : (onTarget (t.create (.feedback u))).run q₁ = (.ok k, q₂))
    (hf : (place t g defaults f.index).run (q₂.write p k) = (.error e, q')) :
    (place t g defaults n.index).run q = (.error e, q') := by
  have hrec : g.records[n.index]? = some rec := hr
  rw [place_eq, bind_of_ok (get_ok.2 ⟨rfl, rfl⟩), hb, hrec]
  simp only [hk]
  rw [bind_of_ok hin]
  simp only
  rw [bind_of_ok hc, bind_of_ok ((remember_ok (u := ())).2 rfl)]
  exact bind_of_error hf

/-- The one answer of a trace of one node. -/
theorem Traced.answer {es : List Event} {ks : List Handle} (h : Traced t g defaults [n] q es ks q') :
    ∃ k, ks = [k] ∧ (place t g defaults n.index).run q = (.ok k, q') := by
  have hrun := traced_iff.2 ⟨es, h⟩
  simp only [List.mapM_cons, List.mapM_nil, bind_ok, pure_ok] at hrun
  obtain ⟨k, _, hplace, _, _, ⟨rfl, rfl⟩, rfl, rfl⟩ := hrun
  exact ⟨k, rfl, hplace⟩

end

/-- The two ways in which nodes are realized one after the other: all of them are, and none comes
too early to an unbound placeholder, or one does, and that is the failure. -/
inductive Decided (g : Graph α) (defaults : Defaults α) (ns : List Node)
    (r : Realization α (Network α)) : Prop
  | realized {es : List Event} {ks : List Handle} {r' : Realization α (Network α)} :
    Traced Target.network g defaults ns r es ks r' →
    (∀ s, r.built s = none → ¬g.UsedEarly s ns) → Decided g defaults ns r
  | unbound {s : Node} {r' : Realization α (Network α)} :
    r.built s = none → g.UsedEarly s ns →
    (ns.mapM fun n => place Target.network g defaults n.index).run r = (.error .unboundState, r') →
    Decided g defaults ns r

variable {n : Node} {rec : NodeRecord α}

theorem Decided.nodes {ns : List Node} (hg : g.Regular Element.IsBuiltin opens)
    (hns : ∀ n ∈ ns, n.index < bound)
    (hall : ∀ n ∈ ns, ∀ q : Realization α (Network α), q.Entered g (n.index + 1) →
      Decided g defaults [n] q)
    (h : r.Entered g bound) : Decided g defaults ns r := by
  induction ns generalizing r with
  | nil => exact .realized (.nil r) fun s _ => Graph.UsedEarly.nil
  | cons n ns ih =>
    have hn := hns n List.mem_cons_self
    cases hall n List.mem_cons_self r (h.mono hn) with
    | unbound hs hearly hrun =>
      exact .unbound hs hearly.head (mapM_error_head (mapM_singleton_error.1 hrun))
    | @realized es ks r₁ ht hnone =>
      have hone : ∀ m ∈ [n], m.index < bound := List.forall_mem_singleton.2 hn
      have hrest := ih (fun m hm => hns m (List.mem_cons_of_mem _ hm))
        (fun m hm => hall m (List.mem_cons_of_mem _ hm)) (h.traced hg ht hone)
      cases hrest with
      | @unbound s r' hs hearly hrun =>
        obtain ⟨rec, hr, hk⟩ := hearly.is_placeholder
        obtain ⟨hs, hbinds⟩ := (h.unbound_iff hg ht hone hr hk).1 hs
        obtain ⟨k, -, hplace⟩ := ht.answer
        exact .unbound hs (.later hbinds hearly) (mapM_error_tail hplace hrun)
      | @realized fs ws r' hts hnone' =>
        refine .realized (ht.append hts) fun s hs hearly => ?_
        rcases Graph.UsedEarly.cons_iff.1 hearly with hearly | ⟨hbinds, hearly⟩
        · exact hnone s hs hearly
        · obtain ⟨rec, hr, hk⟩ := hearly.is_placeholder
          exact hnone' s ((h.unbound_iff hg ht hone hr hk).2 ⟨hs, hbinds⟩) hearly

theorem Decided.element (hg : g.Regular Element.IsBuiltin opens) {e : Element α}
    (hb : r.built n = none) (hr : g.record? n = some rec) (hk : rec.kind = .element e)
    (hn : g.Accepts defaults n) (h : r.Entered g (n.index + 1))
    (hin : Decided g defaults rec.inputs r) : Decided g defaults [n] r := by
  cases hin with
  | unbound hs hearly hrun =>
    obtain ⟨ho, config, hres, -⟩ := hn rec e hr hk
    exact .unbound hs ((Graph.UsedEarly.element_iff hr hk).2 hearly)
      (mapM_singleton_error.2 (place_element_inputs hb hr hk ho hres hrun))
  | realized ht hnone =>
    have hins := Graph.inputs_lt hr
    have h₀ := h.mono (Nat.le_succ n.index)
    obtain ⟨ws, hw⟩ := ht.written hg hins h₀.owned
    obtain ⟨ho, config, k, r₂, hres, hrun, hsize⟩ :=
      element_total hg hr hk hn (h₀.traced hg ht hins).toSized hw.answers
    exact .realized (.element hb hr hk ho hres ht hrun hsize (.nil _)) fun s hs hearly =>
      hnone s hs ((Graph.UsedEarly.element_iff hr hk).1 hearly)

omit [Scalar α] in
/-- The placeholder of an integrator is bound before the integrand is realized, and no other is. -/
theorem opened_unbound_iff {p s : Node} {k : Handle} {r₁ r₂ : Realization α (Network α)}
    (hq : r₂.memo = r₁.memo ∧ r₂.poisoned = r₁.poisoned) :
    (r₂.write p k).built s = none ↔ p ≠ s ∧ r₁.built s = none := by
  have hmemo : r₂.built s = r₁.built s := by rw [built, built, hq.1]
  rw [Realization.write, built_cons]
  by_cases hs : s = p
  · simp [hs]
  · simp only [if_neg hs]
    exact ⟨fun h => ⟨fun he => hs he.symm, hmemo ▸ h⟩, fun h => hmemo ▸ h.2⟩

theorem Decided.integrate (hg : g.Regular Element.IsBuiltin opens) {p : Node} {f : Option Node}
    (hb : r.built n = none) (hr : g.record? n = some rec) (hk : rec.kind = .integrate p f)
    (h : r.Entered g (n.index + 1)) (hin : Decided g defaults rec.inputs r)
    (hf : ∀ m ∈ f, ∀ q : Realization α (Network α), q.Entered g (m.index + 1) →
      Decided g defaults [m] q) : Decided g defaults [n] r := by
  cases hin with
  | unbound hs hearly hrun =>
    exact .unbound hs ((Graph.UsedEarly.integrate_iff hr hk).2 (.inl hearly))
      (mapM_singleton_error.2 (place_integrate_inputs hb hr hk hrun))
  | @realized es ks r₁ ht hnone =>
    have hins := Graph.inputs_lt hr
    have h₀ := h.mono (Nat.le_succ n.index)
    have h₁ := h₀.traced hg ht hins
    obtain ⟨ws, hw⟩ := ht.written hg hins h₀.owned
    obtain ⟨u, k, r₂, rfl, hc⟩ := feedback_total hg hr hk h₁.toSized hw.answers
    cases f with
    | none =>
      refine .realized (.integrate hb hr hk ht hc (.nil _)) fun s hs hearly => ?_
      rcases (Graph.UsedEarly.integrate_iff hr hk).1 hearly with hearly | ⟨_, ⟨⟩, -⟩
      exact hnone s hs hearly
    | some m =>
      obtain ⟨hopen, hobject, hsize⟩ := h.toOpened.open hg hb hr hk h₁.toOpened hw hc
      obtain ⟨hl, -⟩ :=
        opened_logged hg (h := k) (Nat.lt_succ_self _) hb hr hk h.owned hw (onTarget_keeps hc)
      have h₂ : (r₂.write p k).Entered g n.index := h₀.extend { hopen with placeholders := nofun } hl
      cases hf m rfl _ (h₂.mono (Graph.integrand_lt hr hk)) with
      | @unbound s _ hs hearly hrun =>
        obtain ⟨hne, hs⟩ := (opened_unbound_iff (onTarget_keeps hc)).1 hs
        obtain ⟨rec', hr', hk'⟩ := hearly.is_placeholder
        obtain ⟨hs, hbinds⟩ := (h₀.unbound_iff hg ht hins hr' hk').1 hs
        refine .unbound hs ?_ (mapM_singleton_error.2 (place_integrand hb hr hk
          (traced_iff.2 ⟨es, ht⟩) hc (mapM_singleton_error.1 hrun)))
        exact (Graph.UsedEarly.integrate_iff hr hk).2 (.inr ⟨m, rfl, hne, hbinds, hearly⟩)
      | @realized fs ks r₃ htf hnone' =>
        obtain ⟨rate, rfl, -⟩ := htf.answer
        obtain ⟨r₄, hconnect⟩ := closing_total hg hr hk h₂.toOpened hobject hsize htf
        refine .realized (.closed hb hr hk ht hc htf hconnect (.nil _)) fun s hs hearly => ?_
        rcases (Graph.UsedEarly.integrate_iff hr hk).1 hearly with hearly | ⟨_, ⟨⟩, hne, hbinds, hearly⟩
        · exact hnone s hs hearly
        · obtain ⟨rec', hr', hk'⟩ := hearly.is_placeholder
          have hs₁ := (h₀.unbound_iff hg ht hins hr' hk').2 ⟨hs, hbinds⟩
          exact hnone' s ((opened_unbound_iff (onTarget_keeps hc)).2 ⟨hne, hs₁⟩) hearly

/-- The recursion goes along the places of the graph. -/
theorem Decided.node (hg : g.Regular Element.IsBuiltin opens) (hn : n.index < g.size)
    (haccept : ∀ m, g.Reached [n] m → g.Accepts defaults m) (h : r.Entered g (n.index + 1)) :
    Decided g defaults [n] r := by
  obtain ⟨i⟩ := n
  induction i using Nat.strongRecOn generalizing r with
  | ind i ih =>
    cases hb : r.built ⟨i⟩ with
    | some k =>
      refine .realized (.known hb (.nil r)) fun s hs hearly => ?_
      obtain ⟨k', hk'⟩ := h.reached hg ⟨k, hb⟩ hearly.reached
      rw [hs] at hk'
      cases hk'
    | none =>
      obtain ⟨rec, hr⟩ : ∃ rec, g.record? ⟨i⟩ = some rec :=
        ⟨g.records[i], Array.getElem?_eq_getElem hn⟩
      have hone : ∀ m : Node, m.index < i → g.Reached [⟨i⟩] m →
          ∀ q : Realization α (Network α), q.Entered g (m.index + 1) → Decided g defaults [m] q := by
        intro m hm hreached q hq
        refine ih m.index hm (Nat.lt_trans hm hn) (fun l hl => haccept l (hl.through ?_)) hq
        exact fun l hl => List.mem_singleton.1 hl ▸ hreached
      have hin : ∀ m ∈ rec.inputs, g.Reached [⟨i⟩] m := by
        intro m hm
        refine .input (.root List.mem_cons_self) ?_
        rwa [Graph.inputsOf, hr]
      have hinputs : Decided g defaults rec.inputs r :=
        .nodes hg (Graph.inputs_lt hr)
          (fun m hm => hone m (Graph.inputs_lt hr m hm) (hin m hm)) (h.mono (Nat.le_succ i))
      cases hk : rec.kind with
      | state =>
        exact .unbound hb (.state hr hk) (mapM_singleton_error.2 (place_state hb hr hk))
      | element e =>
        exact .element hg hb hr hk (haccept _ (.root List.mem_cons_self)) h hinputs
      | integrate p f =>
        refine .integrate hg hb hr hk h hinputs fun m hm => ?_
        obtain rfl := Option.mem_def.1 hm
        refine hone m (Graph.integrand_lt hr hk) (.integrand (.root List.mem_cons_self) ?_)
        exact Graph.integrandOf_eq_some.2 ⟨rec, p, hr, hk⟩

end Realize

variable {n : Node}

/-- A node of a constructed graph with parameters in order, asked of a session that is still
healthy. It is refused for an unbound placeholder exactly if it comes to one before the integrator
of it is entered, going through inputs from left to right and passing by what is realized; otherwise
it is realized. So a node that leads to a placeholder not through its integrator's integrand is
refused when the integrator is neither realized before nor led to, and a node that leads to none in
that way is realized, given room for the matrices on the way, of fewer than `entryLimit` entries. -/
theorem realized_unless_unbound (hr : Session defaults g r) (hd : defaults.Declared)
    (hn : n.index < g.size) (hconf : g.WellConfigured defaults n) :
    ((∃ r', (make Target.network g defaults n).run r = (.error .unboundState, r')) ↔
      ∃ s, r.built s = none ∧ g.UsedEarly s [n]) ∧
    ((∃ h r', (make Target.network g defaults n).run r = (.ok h, r')) ↔
      ∀ s, r.built s = none → ¬g.UsedEarly s [n]) ∧
    (∀ s, g.Escapes s n → r.built s = none → ¬g.Binds [n] s →
      ∃ r', (make Target.network g defaults n).run r = (.error .unboundState, r')) ∧
    ((∀ s, ¬g.Escapes s n) → ∃ h r', (make Target.network g defaults n).run r = (.ok h, r')) := by
  obtain ⟨hs, opens, hg⟩ := hr.settled
  have hentered : r.Entered g (n.index + 1) := by
    obtain ⟨first, b, ws, hl, -⟩ := hs.written
    exact ⟨⟨hs.toSized, hs.owned _, nofun⟩, first, b, ws, hl⟩
  have haccept : ∀ m, g.Reached [n] m → g.Accepts defaults m := by
    intro m hm
    have hm' : g.WellConfigured defaults m := fun l hl =>
      hconf l (hl.through fun k hk => List.mem_singleton.1 hk ▸ hm)
    exact hm'.accepts hg hd
  cases Decided.node hg hn haccept hentered with
  | @unbound s r' hs' hearly hrun =>
    have hmake := make_error hs.healthy (mapM_singleton_error.1 hrun)
    obtain ⟨m, hm, hescapes⟩ := hearly.escapes
    rw [List.mem_singleton.1 hm] at hescapes
    refine ⟨⟨fun _ => ⟨s, hs', hearly⟩, fun _ => ⟨_, hmake⟩⟩, ⟨?_, fun hnone => ?_⟩,
      fun _ _ _ _ => ⟨_, hmake⟩, fun hnone => ?_⟩
    · rintro ⟨h, r', hok⟩
      rw [hmake] at hok
      cases hok
    · exact absurd hearly (hnone s hs')
    · exact absurd hescapes (hnone s)
  | @realized es ks r' ht hnone =>
    obtain ⟨h, rfl, hplace⟩ := ht.answer
    have hmake := make_ok.2 ⟨hs.healthy, hplace⟩
    refine ⟨⟨?_, ?_⟩, ⟨fun _ => hnone, fun _ => ⟨h, r', hmake⟩⟩, fun s hescapes hs' hbinds => ?_,
      fun _ => ⟨h, r', hmake⟩⟩
    · rintro ⟨r', herror⟩
      rw [hmake] at herror
      cases herror
    · rintro ⟨s, hs', hearly⟩
      exact absurd hearly (hnone s hs')
    · -- A placeholder that the node leads to is known in the end, which only its integrator brings.
      obtain ⟨rec, hrec, hk⟩ := hescapes.is_placeholder
      have hone : ∀ m ∈ [n], m.index < n.index + 1 :=
        List.forall_mem_singleton.2 (Nat.lt_succ_self _)
      obtain ⟨hsettled, hb⟩ := hs.traced hg ht
      obtain ⟨k, hknown⟩ := hsettled.reached hg ⟨h, hb⟩ hescapes.reached
      rw [(hentered.unbound_iff hg ht hone hrec hk).2 ⟨hs', hbinds⟩] at hknown
      cases hknown

/-- A source, an integrator whose integrand is its own state, and bundles of the integrator and its
placeholder in the two orders. -/
def leakedState : Build ℚ Node := do
  let u ← Build.stimulus (.constant [1])
  let x ← Build.integrate u (some fun s => pure s)
  let _ ← Build.bundle [x, ⟨1⟩]
  Build.bundle [⟨1⟩, x]

def leakedGraph : Graph ℚ := leakedState.graph

theorem leakedGraph_grown : leakedGraph.Grown Element.IsBuiltin [] := by
  have hall : ∀ k : BuiltinKind ℚ, k.element.IsBuiltin := fun k => ⟨k, rfl⟩
  have hk : Build.Keeps Element.IsBuiltin leakedState := by
    refine (Build.keeps_stimulus hall _).bind fun u => Build.Keeps.bind ?_ fun x =>
      (Build.keeps_bundle hall _).bind fun _ => Build.keeps_bundle hall _
    refine Build.keeps_integrate _ ?_
    rintro _ ⟨⟩ x
    exact Build.keeps_pure x
  exact hk.grown

/-- The placeholder before its integrator is refused. -/
theorem leakedState_refused :
    Session .standard leakedGraph (.start (.empty none)) ∧
      (Defaults.standard : Defaults ℚ).Declared ∧ leakedGraph.WellConfigured .standard ⟨4⟩ ∧
      leakedGraph.UsedEarly ⟨1⟩ [⟨4⟩] ∧
      ∃ r', (make Target.network leakedGraph .standard ⟨4⟩).run (.start (.empty none)) =
        (.error .unboundState, r') := by
  have hstart : Session .standard leakedGraph (.start (.empty none)) :=
    .start leakedGraph_grown (.empty none)
  have hd : (Defaults.standard : Defaults ℚ).Declared := .ofSettings _
  have hconf : leakedGraph.WellConfigured .standard ⟨4⟩ := .of_all (by decide +kernel)
  have hbundle : leakedGraph.record? ⟨4⟩ = some ⟨.element .bundle, [⟨1⟩, ⟨2⟩], 2, .empty, .empty⟩ := rfl
  have hearly : leakedGraph.UsedEarly ⟨1⟩ [⟨4⟩] := .input hbundle nofun (.state rfl rfl)
  obtain ⟨hiff, -⟩ := realized_unless_unbound hstart hd (by decide +kernel) hconf
  exact ⟨hstart, hd, hconf, hearly, hiff.2 ⟨⟨1⟩, rfl, hearly⟩⟩

/-- The placeholder behind its integrator is not refused, though it stands outside the integrand. -/
theorem leakedState_realized :
    Session .standard leakedGraph (.start (.empty none)) ∧
      (Defaults.standard : Defaults ℚ).Declared ∧ leakedGraph.WellConfigured .standard ⟨3⟩ ∧
      leakedGraph.Escapes ⟨1⟩ ⟨3⟩ ∧
      ∃ r', (make Target.network leakedGraph .standard ⟨3⟩).run (.start (.empty none)) =
        (.ok ⟨2, 2⟩, r') :=
  ⟨.start leakedGraph_grown (.empty none), .ofSettings _, .of_all (by decide +kernel),
    .input (m := ⟨1⟩) (by decide +kernel) (.state rfl rfl), _, Prod.ext (by decide +kernel) rfl⟩

end SignalGraph
