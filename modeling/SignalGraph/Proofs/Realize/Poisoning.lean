import SignalGraph.Proofs.Realize.Once

namespace SignalGraph

open Realize Realization Stateful

variable {α σ : Type}

namespace Graph

variable {g g' : Graph α}

theorem Entry.extend (h : g.Extends g') {built : Node → Option Handle} {w : Write}
    (hw : g.Entry built w) : g'.Entry built w := by
  cases hw with
  | element hr hk hin => exact .element (h.record? hr) hk hin
  | placeholder hr hk hin => exact .placeholder (h.record? hr) hk hin
  | integrate hr hk hs => exact .integrate (h.record? hr) hk hs
  | closed hr hk hs hf => exact .closed (h.record? hr) hk hs hf

end Graph

namespace Realization

variable {g g' : Graph α} {allowed : Element α → Prop} {opens : List Node} {r r' : Realization α σ}

theorem Logged.extend {r₀ : Realization α σ} {bound : Nat} {ws : List Write}
    (hl : Logged g bound r₀ r ws) (he : g.Extends g') : Logged g' bound r₀ r ws :=
  ⟨hl.memo, hl.poisoned, hl.nodup, hl.fresh, fun w hw => (hl.entries w hw).extend he⟩

/-- The integrator of a placeholder that was written is the one that it had before the graph grew. -/
theorem Complete.extend {r₀ : Realization α σ} {bound : Nat} {ws : List Write}
    (hc : Complete g ws) (hl : Logged g bound r₀ r ws) (hg' : g'.Regular allowed opens)
    (he : g.Extends g') : Complete g' ws := by
  intro o s ho hs
  obtain ⟨w, hw, rfl⟩ := List.mem_map.1 hs
  obtain ⟨u, f, -, hstate⟩ := hg'.owns ho
  cases hl.entries w hw with
  | element hr hk _ =>
    cases (he.record? hr).symm.trans hstate
    cases hk
  | @placeholder n s k v us rec f hr hk _ =>
    have howns : g'.Owns n.index s := ⟨rec, f, he.record? hr, hk⟩
    obtain rfl := hg'.owner _ _ _ ho howns
    exact hc _ _ ⟨rec, f, hr, hk⟩ hs
  | integrate hr hk _ =>
    cases (he.record? hr).symm.trans hstate
    cases hk
  | closed hr hk _ _ =>
    cases (he.record? hr).symm.trans hstate
    cases hk

/-- All that is known was written down by complete runs. -/
def Intact (g : Graph α) (r : Realization α σ) : Prop :=
  ∃ (first : σ) (bound : Nat) (ws : List Write), Logged g bound (.start first) r ws ∧ Complete g ws

namespace Intact

theorem start (target : σ) : (start target : Realization α σ).Intact g :=
  ⟨target, 0, [], .refl g 0 _, nofun⟩

theorem healthy (h : r.Intact g) : r.poisoned = false := by
  obtain ⟨_, _, _, hl, -⟩ := h
  exact hl.poisoned

theorem owned (h : r.Intact g) (bound : Nat) : r.Owned g bound := by
  obtain ⟨first, _, _, hl, hc⟩ := h
  exact (owned_start first bound).logged hl hc

theorem written (h : r.Intact g) {bound : Nat} {ns : List Node} {es : List Event}
    {hs : List Handle} {ws : List Write} (hw : Written g bound ns r es hs r' ws) : r'.Intact g := by
  obtain ⟨first, b, ws', hl, hc⟩ := h
  exact ⟨first, _, _, (hl.mono (Nat.le_max_left b bound)).append
    (hw.toLogged.mono (Nat.le_max_right b bound)), hc.append hw.complete⟩

/-- Nodes that are all realized are answered with what is written down, and nothing is lost. -/
theorem makes (h : r.Intact g) (hg : g.Regular allowed opens) {t : Target α σ}
    {defaults : Defaults α} {ns : List Node} {hs : List Handle}
    (hrun : (ns.mapM (make t g defaults)).run r = (.ok hs, r')) :
    r'.Intact g ∧ List.Forall₂ (fun n k => r'.built n = some k) ns hs ∧
      ∀ n k, r.built n = some k → r'.built n = some k := by
  obtain ⟨bound, hns⟩ := indices_bounded ns
  obtain ⟨es, ht⟩ := traced_iff.1 (places_of_makes hrun)
  obtain ⟨ws, hw⟩ := ht.written hg hns (h.owned bound)
  exact ⟨h.written hw, hw.answers, hw.keeps⟩

/-- More nodes change nothing for those that are known. -/
theorem grow (h : r.Intact g) (hg' : g'.Regular allowed opens) (he : g.Extends g') :
    r.Intact g' := by
  obtain ⟨first, b, ws, hl, hc⟩ := h
  exact ⟨first, b, ws, hl.extend he, hc.extend hl hg' he⟩

end Intact

end Realization

section

variable {t : Target α σ} {g : Graph α} {defaults : Defaults α} {n : Node} {ns : List Node}
  {e : RealizeError} {r r' : Realization α σ}

theorem make_poisoned (hp : r.poisoned = true) :
    (make t g defaults n).run r = (.error .poisoned, r) := by
  rw [make, bind_of_ok (get_ok.2 ⟨rfl, rfl⟩), if_pos hp]
  rfl

variable (t g defaults) in
/-- Asking for no nodes is answered even then. -/
theorem makes_poisoned (hp : r.poisoned = true) (ns : List Node) :
    (ns.mapM (make t g defaults)).run r = (if ns.isEmpty then .ok [] else .error .poisoned, r) := by
  cases ns with
  | nil => rfl
  | cons n ns => exact mapM_error_head (make_poisoned hp)

theorem make_failed (hr : r.poisoned = true → r.memo = [])
    (h : (make t g defaults n).run r = (.error e, r')) : r'.poisoned = true ∧ r'.memo = [] := by
  cases hp : r.poisoned with
  | true =>
    rw [make_poisoned hp] at h
    cases h
    exact ⟨hp, hr hp⟩
  | false =>
    rcases hplace : (place t g defaults n.index).run r with ⟨_ | k, q⟩
    · rw [make_error hp hplace] at h
      cases h
      exact ⟨rfl, rfl⟩
    · rw [make_ok.2 ⟨hp, hplace⟩] at h
      cases h

/-- A failure among nodes asked for one after the other is the last thing that happens. -/
theorem makes_failed (hr : r.poisoned = true → r.memo = [])
    (h : (ns.mapM (make t g defaults)).run r = (.error e, r')) :
    r'.poisoned = true ∧ r'.memo = [] := by
  induction ns generalizing r with
  | nil => cases h
  | cons n ns ih =>
    rcases hn : (make t g defaults n).run r with ⟨e' | k, q⟩
    · rw [mapM_error_head hn] at h
      cases h
      exact make_failed hr hn
    · have hq : q.poisoned = false := by
        obtain ⟨hp, hplace⟩ := make_ok.1 hn
        obtain ⟨es, ht⟩ := traced_of_place hplace
        exact (traced_poisoned ht).trans hp
      refine ih (r := q) (fun hp => absurd (hq.symm.trans hp) Bool.false_ne_true) ?_
      rw [List.mapM_cons, bind_of_ok hn] at h
      rcases hns : (ns.mapM (make t g defaults)).run q with ⟨e' | ks, q'⟩
      · rw [bind_of_error hns] at h
        exact h
      · rw [bind_of_ok hns] at h
        cases h

end

namespace Making

/-- Calls one after the other, each on the graph of its time, with their answers. A call that fails
does not end them. -/
def performEach (t : Target α σ) (defaults : Defaults α) :
    List (Graph α × Making) → Realization α σ →
      List (Except RealizeError (List Handle)) × Realization α σ
  | [], r => ([], r)
  | (g, m) :: calls, r =>
    let (answer, r') := (m.perform t g defaults).run r
    let (answers, r'') := performEach t defaults calls r'
    (answer :: answers, r'')

variable {t : Target α σ} {defaults : Defaults α} {calls : List (Graph α × Making)}
  {r : Realization α σ}

theorem performEach_poisoned (hp : r.poisoned = true) :
    (performEach t defaults calls r).2 = r := by
  induction calls with
  | nil => rfl
  | cons c calls ih =>
    obtain ⟨g, m⟩ := c
    simp only [performEach, perform_eq, makes_poisoned t g defaults hp]
    exact ih

variable (t defaults) in
/-- The two ways in which calls go: all of them are answered, or one fails and what is known is
lost. -/
theorem performEach_outcome {allowed : Element α → Prop} {g₀ : Graph α} (hr : r.Intact g₀)
    (hgrown : ∀ c ∈ calls, ∃ opens, c.1.Grown allowed opens)
    (hfirst : ∀ c ∈ calls, g₀.Extends c.1)
    (hgrows : calls.Pairwise fun c d => c.1.Extends d.1) :
    (∃ hss, (performEach t defaults calls r).1 = hss.map .ok ∧
      (performEach t defaults calls r).2.poisoned = false ∧
      (∀ n k, r.built n = some k → (performEach t defaults calls r).2.built n = some k) ∧
      List.Forall₂ (fun c hs => List.Forall₂
        (fun n h => (performEach t defaults calls r).2.built n = some h) c.2.nodes hs) calls hss) ∨
    ((∃ e, .error e ∈ (performEach t defaults calls r).1) ∧
      (performEach t defaults calls r).2.poisoned = true ∧
      (performEach t defaults calls r).2.memo = []) := by
  induction calls generalizing r g₀ with
  | nil => exact .inl ⟨[], rfl, hr.healthy, fun _ _ h => h, .nil⟩
  | cons c calls ih =>
    obtain ⟨g, m⟩ := c
    obtain ⟨opens, hg⟩ := hgrown _ List.mem_cons_self
    have hr := hr.grow hg.regular (hfirst _ List.mem_cons_self)
    obtain ⟨hnext, hgrows⟩ := List.pairwise_cons.1 hgrows
    rcases hrun : (m.nodes.mapM (make t g defaults)).run r with ⟨e | hs, r'⟩
    · simp only [performEach, perform_eq, hrun]
      obtain ⟨hp, hmemo⟩ := makes_failed (fun hp =>
        absurd (hr.healthy.symm.trans hp) Bool.false_ne_true) hrun
      rw [performEach_poisoned hp]
      exact .inr ⟨⟨e, List.mem_cons_self⟩, hp, hmemo⟩
    · simp only [performEach, perform_eq, hrun]
      obtain ⟨hr', hanswers, hkeeps⟩ := hr.makes hg.regular hrun
      rcases ih hr' (fun c hc => hgrown c (List.mem_cons_of_mem _ hc)) hnext hgrows with
        ⟨hss, hok, hp, hkeeps', hall⟩ | ⟨⟨e, he⟩, hp, hmemo⟩
      · refine .inl ⟨hs :: hss, by rw [hok, List.map_cons], hp, fun n k hk => ?_, .cons ?_ hall⟩
        · exact hkeeps' n k (hkeeps n k hk)
        · exact hanswers.imp hkeeps'
      · exact .inr ⟨⟨e, List.mem_cons_of_mem _ he⟩, hp, hmemo⟩

end Making

/-- Nodes and arrays of nodes are asked of a fresh realization on any target, one after the other,
with failures among them; more nodes may be constructed in between. As long as all is answered, the
realization is not poisoned and each handle is the one that is written down for its node. From the
first failure on it is poisoned and knows no node, and every node, and every array that holds one, is
refused for that reason, with no call on the target. -/
theorem failure_poisons {allowed : Element α → Prop} {calls : List (Graph α × Making)}
    (hgrown : ∀ c ∈ calls, ∃ opens, c.1.Grown allowed opens)
    (hgrows : calls.Pairwise fun c d => c.1.Extends d.1) {t : Target α σ} {defaults : Defaults α}
    {target : σ} {answers : List (Except RealizeError (List Handle))} {r : Realization α σ}
    (hrun : Making.performEach t defaults calls (.start target) = (answers, r)) :
    (∃ hss, answers = hss.map .ok ∧ r.poisoned = false ∧
      List.Forall₂ (fun c hs => List.Forall₂ (fun n h => r.built n = some h) c.2.nodes hs)
        calls hss) ∨
    ((∃ e, .error e ∈ answers) ∧ r.poisoned = true ∧ r.size = 0 ∧ (∀ n, r.built n = none) ∧
      (∀ g n, (make t g defaults n).run r = (.error .poisoned, r)) ∧
      ∀ g (f : Fold), 0 < Shape.size f.shape →
        (makeFold t g defaults f).run r = (.error .poisoned, r)) := by
  have hempty : ∀ c ∈ calls, Graph.empty.Extends c.1 := fun c _ => ⟨Nat.zero_le _, nofun⟩
  have houtcome := Making.performEach_outcome t defaults (Intact.start target) hgrown hempty
    hgrows
  rw [hrun] at houtcome
  rcases houtcome with ⟨hss, hok, hp, -, hall⟩ | ⟨he, hp, hmemo⟩
  · exact .inl ⟨hss, hok, hp, hall⟩
  · refine .inr ⟨he, hp, congrArg List.length hmemo, fun n => ?_, fun g n => make_poisoned hp, ?_⟩
    · rw [built, hmemo]
      rfl
    · intro g f hf
      have hnodes : f.toList.isEmpty = false := by
        rw [List.isEmpty_eq_false_iff]
        exact List.ne_nil_of_length_pos (f.size_toList.symm ▸ hf)
      have hmakes := makes_poisoned t g defaults hp f.toList
      rw [hnodes, ← NDArray.toList_mapM] at hmakes
      exact map_error.1 hmakes

/-- The source of the nested loops, then a placeholder before its integrator, then the source again. -/
def poisoningCalls : List (Graph ℚ × Making) :=
  [(nestedGraph, .node ⟨0⟩), (nestedGraph, .node ⟨1⟩), (nestedGraph, .node ⟨0⟩)]

theorem nestedLoops_poisoned :
    (∀ c ∈ poisoningCalls, ∃ opens, c.1.Grown Element.IsBuiltin opens) ∧
      (poisoningCalls.Pairwise fun c d => c.1.Extends d.1) ∧
      ∃ r : Realization ℚ (Network ℚ),
        Making.performEach Target.network KeyMap.empty poisoningCalls (.start (.empty none)) =
          ([.ok [⟨0, 1⟩], .error .unboundState, .error .poisoned], r) ∧
        r.poisoned = true ∧ r.size = 0 ∧ r.built ⟨0⟩ = none ∧
        (makeFold Target.network nestedGraph KeyMap.empty ⟨[1], #v[⟨0⟩]⟩).run r =
          (.error .poisoned, r) := by
  have hgraph : ∀ c ∈ poisoningCalls, c.1 = nestedGraph := by simp [poisoningCalls]
  have hgrown : ∀ c ∈ poisoningCalls, ∃ opens, c.1.Grown Element.IsBuiltin opens :=
    fun c hc => ⟨[], hgraph c hc ▸ nestedGraph_grown⟩
  have hgrows : poisoningCalls.Pairwise fun c d => c.1.Extends d.1 := by
    simp [poisoningCalls, Graph.Extends.refl]
  have hrun : ∃ r : Realization ℚ (Network ℚ),
      Making.performEach Target.network KeyMap.empty poisoningCalls (.start (.empty none)) =
        ([.ok [⟨0, 1⟩], .error .unboundState, .error .poisoned], r) :=
    ⟨_, Prod.ext (by decide +kernel) rfl⟩
  obtain ⟨r, hrun⟩ := hrun
  refine ⟨hgrown, hgrows, r, hrun, ?_⟩
  rcases failure_poisons hgrown hgrows hrun with ⟨hss, hok, -⟩ | ⟨-, hp, hsize, hnone, -, hfold⟩
  · have hmem : Except.error RealizeError.unboundState ∈ hss.map .ok := hok ▸ (by simp)
    simp at hmem
  · exact ⟨hp, hsize, hnone _, hfold _ _ (by decide)⟩

/-- An array without nodes is not refused by a realization that is poisoned. -/
theorem empty_array_answered :
    ∃ r : Realization ℚ (Network ℚ),
      Making.performEach Target.network KeyMap.empty poisoningCalls (.start (.empty none)) =
        ([.ok [⟨0, 1⟩], .error .unboundState, .error .poisoned], r) ∧ r.poisoned = true ∧
      ∃ handles, (makeFold Target.network nestedGraph KeyMap.empty ⟨[0], #v[]⟩).run r =
        (.ok handles, r) := by
  refine ⟨_, Prod.ext (by decide +kernel) rfl, by decide +kernel, ?_⟩
  have hrun : ∀ r : Realization ℚ (Network ℚ),
      ((Making.fold ⟨[0], #v[]⟩).perform Target.network nestedGraph KeyMap.empty).run r =
        (.ok [], r) := by
    intro r
    rw [Making.perform_eq, show (Making.fold ⟨[0], #v[]⟩).nodes = [] from rfl, List.mapM_nil]
    exact pure_ok.2 ⟨rfl, rfl⟩
  obtain ⟨handles, hfold, -⟩ := map_ok.1 (hrun _)
  exact ⟨handles, hfold⟩

end SignalGraph
