import SignalGraph.Proofs.Arithmetic.Rational
import SignalGraph.Proofs.Realize.Writes

namespace SignalGraph

open Realize Realization Stateful

variable {α σ : Type}

/-- What can be asked of a realization. -/
inductive Making where
  | node (n : Node)
  | fold (f : Fold)

namespace Making

def nodes : Making → List Node
  | node n => [n]
  | fold f => f.toList

/-- The handles that are answered with, in the order of the nodes. -/
def perform (t : Target α σ) (g : Graph α) (defaults : Defaults α) :
    Making → Realize α σ (List Handle)
  | node n => ([·]) <$> make t g defaults n
  | fold f => NDArray.toList <$> makeFold t g defaults f

variable {t : Target α σ} {g : Graph α} {defaults : Defaults α}

/-- An array is made node by node. -/
theorem perform_eq (m : Making) :
    m.perform t g defaults = m.nodes.mapM (make t g defaults) := by
  cases m with
  | node n => simp [perform, nodes]
  | fold f => exact NDArray.toList_mapM _ f

theorem perform_all {ms : List Making} {answers : List (List Handle)} {r r' : Realization α σ}
    (h : (ms.mapM (perform t g defaults)).run r = (.ok answers, r')) :
    ((ms.flatMap nodes).mapM (make t g defaults)).run r = (.ok answers.flatten, r') := by
  induction ms generalizing r answers with
  | nil =>
    cases h
    rfl
  | cons m ms ih =>
    simp only [List.mapM_cons, bind_ok, pure_ok, perform_eq] at h
    obtain ⟨hs, r₁, hm, rest, r₂, hms, rfl, rfl⟩ := h
    simp only [List.flatMap_cons, List.mapM_append, bind_ok, pure_ok]
    exact ⟨hs, r₁, hm, rest.flatten, r₂, ih hms, by simp, rfl⟩

end Making

/-- Each event belongs to a node that the roots lead to, and each such node has its events once,
with the handles that are written down. -/
structure Once (g : Graph α) (roots : List Node) (es : List Event) (r : Realization α σ) : Prop where
  builds : (es.filterMap Event.built?).Nodup ∧ ∀ n, n ∈ es.filterMap Event.built? ↔
    g.Reached roots n ∧ ∃ rec e, g.record? n = some rec ∧ rec.kind = .element e
  feedbacks : (es.filterMap Event.opened?).Nodup ∧ ∀ n, n ∈ es.filterMap Event.opened? ↔
    g.Reached roots n ∧ ∃ rec s f, g.record? n = some rec ∧ rec.kind = .integrate s f
  connects : (es.filterMap Event.closed?).Nodup ∧ ∀ n, n ∈ es.filterMap Event.closed? ↔
    g.Reached roots n ∧ ∃ f, g.integrandOf n = some f
  build_handles : ∀ n inputs h, .build n inputs h ∈ es → r.built n = some h ∧
    List.Forall₂ (fun m k => r.built m = some k) (g.inputsOf n) inputs
  feedback_handles : ∀ n u h, .feedback n u h ∈ es → r.built n = some h ∧
    ∃ m, g.inputsOf n = [m] ∧ r.built m = some u
  connect_handles : ∀ n h rate, .connect n h rate ∈ es → r.built n = some h ∧
    ∃ f, g.integrandOf n = some f ∧ r.built f = some rate

/-- Nodes that writes bring along are different when the writes are of different nodes. -/
theorem nodup_events {p : Event → Option Node} {R : Node → Node → Prop} {ws : List Write}
    (hnodup : (ws.map Write.node).Nodup) (hR : ∀ a b n, R a n → R b n → a = b)
    (hws : ∀ w ∈ ws, w.events.filterMap p = [] ∨
      ∃ n, w.events.filterMap p = [n] ∧ R w.node n) :
    ((ws.flatMap Write.events).filterMap p).Nodup := by
  have hmem : ∀ (vs : List Write), (∀ w ∈ vs, w.events.filterMap p = [] ∨
      ∃ n, w.events.filterMap p = [n] ∧ R w.node n) →
      ∀ n ∈ (vs.flatMap Write.events).filterMap p, ∃ w ∈ vs, R w.node n := by
    intro vs hvs n hn
    obtain ⟨e, he, hp⟩ := List.mem_filterMap.1 hn
    obtain ⟨w, hw, hew⟩ := List.mem_flatMap.1 he
    have hnw : n ∈ w.events.filterMap p := List.mem_filterMap.2 ⟨e, hew, hp⟩
    rcases hvs w hw with h | ⟨m, hm, hr⟩
    · rw [h] at hnw
      cases hnw
    · rw [hm] at hnw
      exact ⟨w, hw, List.mem_singleton.1 hnw ▸ hr⟩
  induction ws with
  | nil => exact .nil
  | cons w ws ih =>
    obtain ⟨hnot, hnodup⟩ := List.nodup_cons.1 hnodup
    have hrest := ih hnodup fun v hv => hws v (List.mem_cons_of_mem _ hv)
    rw [List.flatMap_cons, List.filterMap_append]
    rcases hws w List.mem_cons_self with h | ⟨n, hn, hr⟩
    · rwa [h]
    · rw [hn]
      refine List.nodup_cons.2 ⟨fun hm => ?_, hrest⟩
      obtain ⟨v, hv, hr'⟩ := hmem ws (fun v hv => hws v (List.mem_cons_of_mem _ hv)) n hm
      exact hnot (List.mem_map.2 ⟨v, hv, hR _ _ _ hr' hr⟩)

namespace Realization.Logged

variable {g : Graph α} {bound : Nat} {target : σ} {r : Realization α σ} {ws : List Write}
  {allowed : Element α → Prop} {opens : List Node}

/-- Whatever is known was written. -/
theorem write_of_built (hl : Logged g bound (.start target) r ws) {n : Node} {k : Handle}
    (hb : r.built n = some k) : ∃ w ∈ ws, w.node = n ∧ w.handle = k := by
  rcases hl.built_iff.1 hb with hb | hw
  · cases hb
  · exact hw

theorem mem_events {w : Write} {e : Event} (hw : w ∈ ws) (he : e ∈ w.events) :
    e ∈ ws.flatMap Write.events :=
  List.mem_flatMap.2 ⟨w, hw, he⟩

/-- A known element was built from what stands for its inputs. -/
theorem element_built (hl : Logged g bound (.start target) r ws) (hg : g.Regular allowed opens)
    {n : Node} {k : Handle} {rec : NodeRecord α} {e : Element α} (hb : r.built n = some k)
    (hr : g.record? n = some rec) (hk : rec.kind = .element e) :
    ∃ inputs, .build n inputs k ∈ ws.flatMap Write.events ∧
      List.Forall₂ (fun m k => r.built m = some k) rec.inputs inputs := by
  obtain ⟨w, hw, rfl, rfl⟩ := hl.write_of_built hb
  cases hl.entries w hw with
  | element hr' hk' hin =>
    cases hr.symm.trans hr'
    exact ⟨_, mem_events hw (List.mem_singleton_self _), hin⟩
  | placeholder hr' hk' hin =>
    obtain ⟨u, f, -, hs⟩ := hg.owns ⟨_, _, hr', hk'⟩
    cases hr.symm.trans hs
    cases hk
  | integrate hr' hk' _ =>
    cases hr.symm.trans hr'
    cases hk.symm.trans hk'
  | closed hr' hk' _ _ =>
    cases hr.symm.trans hr'
    cases hk.symm.trans hk'

/-- A known placeholder stands for the feedback object of its integrator. -/
theorem placeholder_built (hl : Logged g bound (.start target) r ws) (hg : g.Regular allowed opens)
    {s : Node} {k : Handle} {rec : NodeRecord α} (hb : r.built s = some k)
    (hr : g.record? s = some rec) (hk : rec.kind = .state) :
    ∃ (n m : Node) (u : Handle), g.Owns n.index s ∧ rec.inputs = [m] ∧ r.built m = some u ∧
      .feedback n u k ∈ ws.flatMap Write.events := by
  obtain ⟨w, hw, rfl, rfl⟩ := hl.write_of_built hb
  cases hl.entries w hw with
  | element hr' hk' hin =>
    cases hr.symm.trans hr'
    cases hk.symm.trans hk'
  | @placeholder n s h u us rec' f hr' hk' hin =>
    obtain ⟨m, f', ho, hs⟩ := hg.owns ⟨_, _, hr', hk'⟩
    cases hr'.symm.trans ho
    cases hr.symm.trans hs
    cases hin with
    | cons hm _ =>
      exact ⟨n, m, u, ⟨_, f', ho, rfl⟩, rfl, hm, mem_events hw (List.mem_singleton_self _)⟩
  | integrate hr' hk' _ =>
    cases hr.symm.trans hr'
    cases hk.symm.trans hk'
  | closed hr' hk' _ _ =>
    cases hr.symm.trans hr'
    cases hk.symm.trans hk'

/-- A known integrator shares the feedback object with its placeholder, and its loop is closed. -/
theorem integrator_built (hl : Logged g bound (.start target) r ws) (hg : g.Regular allowed opens)
    {n s : Node} {k : Handle} {rec : NodeRecord α} {f : Option Node} (hb : r.built n = some k)
    (hr : g.record? n = some rec) (hk : rec.kind = .integrate s f) :
    r.built s = some k ∧ ∀ m ∈ f, ∃ rate, r.built m = some rate ∧
      .connect n k rate ∈ ws.flatMap Write.events := by
  obtain ⟨w, hw, rfl, rfl⟩ := hl.write_of_built hb
  cases hl.entries w hw with
  | element hr' hk' hin =>
    cases hr.symm.trans hr'
    cases hk.symm.trans hk'
  | placeholder hr' hk' hin =>
    obtain ⟨u, f', -, hs⟩ := hg.owns ⟨_, _, hr', hk'⟩
    cases hr.symm.trans hs
    cases hk
  | integrate hr' hk' hs =>
    cases hr.symm.trans hr'
    cases hk.symm.trans hk'
    exact ⟨hs, nofun⟩
  | closed hr' hk' hs hf =>
    cases hr.symm.trans hr'
    cases hk.symm.trans hk'
    refine ⟨hs, ?_⟩
    rintro m ⟨⟩
    exact ⟨_, hf, mem_events hw (List.mem_singleton_self _)⟩

/-- The feedback object of a known integrator was asked for with the integrator's input. -/
theorem feedback_built (hl : Logged g bound (.start target) r ws) (hg : g.Regular allowed opens)
    {n s : Node} {k : Handle} {rec : NodeRecord α} {f : Option Node} (hb : r.built n = some k)
    (hr : g.record? n = some rec) (hk : rec.kind = .integrate s f) :
    ∃ (m : Node) (u : Handle), rec.inputs = [m] ∧ r.built m = some u ∧
      .feedback n u k ∈ ws.flatMap Write.events := by
  obtain ⟨hs, -⟩ := hl.integrator_built hg hb hr hk
  obtain ⟨u, f', ho, hrec⟩ := hg.owns ⟨rec, f, hr, hk⟩
  obtain ⟨n', m, w, howns, hin, hm, he⟩ := hl.placeholder_built hg hs hrec rfl
  obtain rfl : n' = n := congrArg Node.mk (hg.owner _ _ _ howns ⟨rec, f, hr, hk⟩)
  cases hin
  cases hr.symm.trans ho
  exact ⟨u, w, rfl, hm, he⟩

/-- What known nodes lead to is known. -/
theorem reached_built (hl : Logged g bound (.start target) r ws) (hg : g.Regular allowed opens)
    {roots : List Node} (hroots : ∀ n ∈ roots, ∃ k, r.built n = some k) {n : Node}
    (hn : g.Reached roots n) : ∃ k, r.built n = some k := by
  induction hn with
  | root hn => exact hroots _ hn
  | @input n m _ hm ih =>
    obtain ⟨k, hb⟩ := ih
    rw [Graph.inputsOf] at hm
    cases hr : g.record? n with
    | none =>
      rw [hr] at hm
      cases hm
    | some rec =>
      rw [hr] at hm
      change m ∈ rec.inputs at hm
      cases hk : rec.kind with
      | element e =>
        obtain ⟨inputs, -, hin⟩ := hl.element_built hg hb hr hk
        exact forall₂_mem_left hin hm
      | state =>
        obtain ⟨-, m', u, -, hin, hu, -⟩ := hl.placeholder_built hg hb hr hk
        rw [hin, List.mem_singleton] at hm
        exact ⟨u, hm ▸ hu⟩
      | integrate s f =>
        obtain ⟨m', u, hin, hu, -⟩ := hl.feedback_built hg hb hr hk
        rw [hin, List.mem_singleton] at hm
        exact ⟨u, hm ▸ hu⟩
  | @integrand n f _ hf ih =>
    obtain ⟨k, hb⟩ := ih
    obtain ⟨rec, s, hr, hk⟩ := g.integrandOf_eq_some.1 hf
    obtain ⟨-, hclosed⟩ := hl.integrator_built hg hb hr hk
    obtain ⟨rate, hrate, -⟩ := hclosed f rfl
    exact ⟨rate, hrate⟩

/-- What the event of an element says about it. -/
theorem build_entry (hl : Logged g bound (.start target) r ws) {n : Node} {inputs : List Handle}
    {h : Handle} (he : .build n inputs h ∈ ws.flatMap Write.events) :
    r.built n = some h ∧ ∃ rec e, g.record? n = some rec ∧ rec.kind = .element e ∧
      List.Forall₂ (fun m k => r.built m = some k) rec.inputs inputs := by
  obtain ⟨w, hw, he⟩ := List.mem_flatMap.1 he
  have hb := hl.written hw
  cases hl.entries w hw with
  | element hr hk hin =>
    cases List.mem_singleton.1 he
    exact ⟨hb, _, _, hr, hk, hin⟩
  | placeholder => cases List.mem_singleton.1 he
  | integrate => cases he
  | closed => cases List.mem_singleton.1 he

/-- What the event of a feedback object says about its integrator. -/
theorem feedback_entry (hl : Logged g bound (.start target) r ws) (hg : g.Regular allowed opens)
    (hc : Complete g ws) {n : Node} {u h : Handle}
    (he : .feedback n u h ∈ ws.flatMap Write.events) :
    r.built n = some h ∧ ∃ rec s f m, g.record? n = some rec ∧ rec.kind = .integrate s f ∧
      rec.inputs = [m] ∧ r.built m = some u := by
  obtain ⟨w, hw, he⟩ := List.mem_flatMap.1 he
  have hb := hl.written hw
  cases hl.entries w hw with
  | element => cases List.mem_singleton.1 he
  | @placeholder n' s h' u' us rec f hr hk hin =>
    cases List.mem_singleton.1 he
    have howns : g.Owns n.index s := ⟨rec, f, hr, hk⟩
    -- The integrator is written as well, with the handle that its placeholder has.
    obtain ⟨v, hv, hn⟩ := List.mem_map.1 (hc _ s howns (List.mem_map.2 ⟨_, hw, rfl⟩))
    have hown : r.built n = some v.handle := by
      have hv' := hl.written hv
      rwa [hn] at hv'
    obtain ⟨hs, -⟩ := hl.integrator_built hg hown hr hk
    obtain ⟨m, f', ho, -⟩ := hg.owns howns
    cases hr.symm.trans ho
    cases hin with
    | cons hm _ => exact ⟨hown.trans (hs.symm.trans hb), _, s, _, m, hr, hk, rfl, hm⟩
  | integrate => cases he
  | closed => cases List.mem_singleton.1 he

/-- What the closing of a loop says about its integrator. -/
theorem connect_entry (hl : Logged g bound (.start target) r ws) {n : Node} {h rate : Handle}
    (he : .connect n h rate ∈ ws.flatMap Write.events) :
    r.built n = some h ∧ ∃ f, g.integrandOf n = some f ∧ r.built f = some rate := by
  obtain ⟨w, hw, he⟩ := List.mem_flatMap.1 he
  have hb := hl.written hw
  cases hl.entries w hw with
  | element => cases List.mem_singleton.1 he
  | placeholder => cases List.mem_singleton.1 he
  | integrate => cases he
  | closed hr hk _ hf =>
    cases List.mem_singleton.1 he
    exact ⟨hb, _, g.integrandOf_eq_some.2 ⟨_, _, hr, hk⟩, hf⟩

section

variable {roots : List Node} (hl : Logged g bound (.start target) r ws) (hg : g.Regular allowed opens)
  (hroots : ∀ n ∈ roots, ∃ k, r.built n = some k)
  (hreached : ∀ e ∈ ws.flatMap Write.events, g.Reached roots e.node)

include hl hg hroots hreached

theorem builds_once : ((ws.flatMap Write.events).filterMap Event.built?).Nodup ∧
    ∀ n, n ∈ (ws.flatMap Write.events).filterMap Event.built? ↔
      g.Reached roots n ∧ ∃ rec e, g.record? n = some rec ∧ rec.kind = .element e := by
  refine ⟨nodup_events (R := Eq) hl.nodup (fun _ _ _ h h' => h.trans h'.symm) fun w hw => ?_,
    fun n => ⟨fun hn => ?_, ?_⟩⟩
  · cases hl.entries w hw with
    | element => exact .inr ⟨_, rfl, rfl⟩
    | _ => exact .inl rfl
  · obtain ⟨e, he, hp⟩ := List.mem_filterMap.1 hn
    cases e with
    | build n' inputs h =>
      cases hp
      obtain ⟨-, rec, e, hr, hk, -⟩ := hl.build_entry he
      exact ⟨hreached _ he, rec, e, hr, hk⟩
    | _ => cases hp
  · rintro ⟨hn, rec, e, hr, hk⟩
    obtain ⟨k, hb⟩ := hl.reached_built hg hroots hn
    obtain ⟨inputs, he, -⟩ := hl.element_built hg hb hr hk
    exact List.mem_filterMap.2 ⟨_, he, rfl⟩

theorem feedbacks_once (hc : Complete g ws) :
    ((ws.flatMap Write.events).filterMap Event.opened?).Nodup ∧
      ∀ n, n ∈ (ws.flatMap Write.events).filterMap Event.opened? ↔
        g.Reached roots n ∧ ∃ rec s f, g.record? n = some rec ∧ rec.kind = .integrate s f := by
  refine ⟨nodup_events (R := fun s n => g.Owns n.index s) hl.nodup ?_ fun w hw => ?_,
    fun n => ⟨fun hn => ?_, ?_⟩⟩
  · rintro s s' n ⟨rec, f, hr, hk⟩ ⟨rec', f', hr', hk'⟩
    cases hr.symm.trans hr'
    cases hk.symm.trans hk'
    rfl
  · cases hl.entries w hw with
    | placeholder hr hk => exact .inr ⟨_, rfl, _, _, hr, hk⟩
    | _ => exact .inl rfl
  · obtain ⟨e, he, hp⟩ := List.mem_filterMap.1 hn
    cases e with
    | feedback n' u h =>
      cases hp
      obtain ⟨-, rec, s, f, -, hr, hk, -⟩ := hl.feedback_entry hg hc he
      exact ⟨hreached _ he, rec, s, f, hr, hk⟩
    | _ => cases hp
  · rintro ⟨hn, rec, s, f, hr, hk⟩
    obtain ⟨k, hb⟩ := hl.reached_built hg hroots hn
    obtain ⟨m, u, -, -, he⟩ := hl.feedback_built hg hb hr hk
    exact List.mem_filterMap.2 ⟨_, he, rfl⟩

theorem connects_once : ((ws.flatMap Write.events).filterMap Event.closed?).Nodup ∧
    ∀ n, n ∈ (ws.flatMap Write.events).filterMap Event.closed? ↔
      g.Reached roots n ∧ ∃ f, g.integrandOf n = some f := by
  refine ⟨nodup_events (R := Eq) hl.nodup (fun _ _ _ h h' => h.trans h'.symm) fun w hw => ?_,
    fun n => ⟨fun hn => ?_, ?_⟩⟩
  · cases hl.entries w hw with
    | closed => exact .inr ⟨_, rfl, rfl⟩
    | _ => exact .inl rfl
  · obtain ⟨e, he, hp⟩ := List.mem_filterMap.1 hn
    cases e with
    | connect n' h rate =>
      cases hp
      obtain ⟨-, f, hf, -⟩ := hl.connect_entry he
      exact ⟨hreached _ he, f, hf⟩
    | _ => cases hp
  · rintro ⟨hn, f, hf⟩
    obtain ⟨k, hb⟩ := hl.reached_built hg hroots hn
    obtain ⟨rec, s, hr, hk⟩ := g.integrandOf_eq_some.1 hf
    obtain ⟨-, hclosed⟩ := hl.integrator_built hg hb hr hk
    obtain ⟨rate, -, he⟩ := hclosed f rfl
    exact List.mem_filterMap.2 ⟨_, he, rfl⟩

/-- The writes of a fresh realization bring every event once. -/
theorem once (hc : Complete g ws) : Once g roots (ws.flatMap Write.events) r where
  builds := hl.builds_once hg hroots hreached
  feedbacks := hl.feedbacks_once hg hroots hreached hc
  connects := hl.connects_once hg hroots hreached
  build_handles n inputs h he := by
    obtain ⟨hb, rec, e, hr, -, hin⟩ := hl.build_entry he
    refine ⟨hb, ?_⟩
    rwa [Graph.inputsOf, hr]
  feedback_handles n u h he := by
    obtain ⟨hb, rec, s, f, m, hr, -, hin, hu⟩ := hl.feedback_entry hg hc he
    refine ⟨hb, m, ?_, hu⟩
    rw [Graph.inputsOf, hr]
    exact hin
  connect_handles n h rate he := hl.connect_entry he

end

end Realization.Logged

section

variable {t : Target α σ} {g : Graph α} {defaults : Defaults α} {ns : List Node} {hs : List Handle}
  {r r' : Realization α σ}

theorem places_of_makes (h : (ns.mapM (make t g defaults)).run r = (.ok hs, r')) :
    (ns.mapM fun n => place t g defaults n.index).run r = (.ok hs, r') := by
  induction ns generalizing r hs with
  | nil => exact h
  | cons n ns ih =>
    simp only [List.mapM_cons, bind_ok, pure_ok] at h ⊢
    obtain ⟨k, r₁, hn, ks, r₂, hns, rfl, rfl⟩ := h
    exact ⟨k, r₁, (make_ok.1 hn).2, ks, r₂, ih hns, rfl, rfl⟩

/-- A run that succeeds leaves a realization as healthy as it was. -/
theorem traced_poisoned {es : List Event} (h : Traced t g defaults ns r es hs r') :
    r'.poisoned = r.poisoned := by
  induction h with
  | nil => rfl
  | known _ _ ih => exact ih
  | element _ _ _ _ _ _ hc _ _ ihin ih => exact ih.trans ((converse_keeps hc).2.trans ihin)
  | integrate _ _ _ _ hc _ ihin ih => exact ih.trans ((onTarget_keeps hc).2.trans ihin)
  | closed _ _ _ _ hc _ hconnect _ ihin ihf ih =>
    exact ih.trans ((onTarget_keeps hconnect).2.trans (ihf.trans ((onTarget_keeps hc).2.trans ihin)))

theorem makes_of_places (hp : r.poisoned = false)
    (h : (ns.mapM fun n => place t g defaults n.index).run r = (.ok hs, r')) :
    (ns.mapM (make t g defaults)).run r = (.ok hs, r') := by
  induction ns generalizing r hs with
  | nil => exact h
  | cons n ns ih =>
    simp only [List.mapM_cons, bind_ok, pure_ok] at h ⊢
    obtain ⟨k, r₁, hn, ks, r₂, hns, rfl, rfl⟩ := h
    obtain ⟨es, ht⟩ := traced_of_place hn
    have hp₁ := (traced_poisoned ht).trans hp
    exact ⟨k, r₁, make_ok.2 ⟨hp, hn⟩, ks, r₂, ih hp₁ hns, rfl, rfl⟩

theorem owned_start (target : σ) (bound : Nat) :
    (Realization.start target : Realization α σ).Owned g bound :=
  fun _ _ _ _ hb => nomatch hb

theorem indices_bounded (ns : List Node) : ∃ bound, ∀ n ∈ ns, n.index < bound := by
  induction ns with
  | nil => exact ⟨0, nofun⟩
  | cons n ns ih =>
    obtain ⟨bound, h⟩ := ih
    refine ⟨max (n.index + 1) bound, fun m hm => ?_⟩
    rcases List.mem_cons.1 hm with rfl | hm
    · exact Nat.le_max_left _ _
    · exact Nat.lt_of_lt_of_le (h m hm) (Nat.le_max_right _ _)

end

/-- Nodes and arrays of nodes of a constructed graph are asked of a fresh realization on any target,
one after the other, and all are answered. All that the target sees are the events of the run, among
which each element that the roots lead to is built once, from the handles of its inputs in order,
and each integrator that they lead to gets its feedback object once and is closed once, if it has an
integrand. Roots are answered with the handles written down for them; nothing that was written down
at some time is changed, and a node that is asked for again is answered without a call. -/
theorem realized_once {allowed : Element α → Prop} {opens : List Node} {g : Graph α}
    (hg : g.Grown allowed opens) {t : Target α σ} {defaults : Defaults α} {makings : List Making}
    {target : σ} {answers : List (List Handle)} {r : Realization α σ}
    (hrun : (makings.mapM (Making.perform t g defaults)).run (.start target) = (.ok answers, r)) :
    (∃ es, Traced t g defaults (makings.flatMap Making.nodes) (.start target) es answers.flatten r ∧
      Replayed t g defaults es (.start target) { r with memo := [] }) ∧
    (∀ es, Traced t g defaults (makings.flatMap Making.nodes) (.start target) es answers.flatten r →
      Once g (makings.flatMap Making.nodes) es r) ∧
    List.Forall₂ (fun n h => r.built n = some h) (makings.flatMap Making.nodes) answers.flatten ∧
    (r.memo.map Prod.fst).Nodup ∧
    (∀ before after, makings = before ++ after → ∃ answers' r',
      (before.mapM (Making.perform t g defaults)).run (.start target) = (.ok answers', r') ∧
        r'.memo <:+ r.memo) ∧
    ∀ n h, r.built n = some h → (make t g defaults n).run r = (.ok h, r) := by
  have hregular := hg.regular
  obtain ⟨bound, hns⟩ := indices_bounded (makings.flatMap Making.nodes)
  have hplaces := places_of_makes (Making.perform_all hrun)
  obtain ⟨es, hes⟩ := traced_iff.1 hplaces
  obtain ⟨ws, hw⟩ := hes.written hregular hns (owned_start target bound)
  refine ⟨⟨es, hes, hes.replayed []⟩, fun es' hes' => ?_, hw.answers, ?_, ?_, fun n h hb => ?_⟩
  · obtain ⟨ws', hw'⟩ := hes'.written hregular hns (owned_start target bound)
    obtain rfl := hw'.events
    exact hw'.once hregular (fun n hn => forall₂_mem_left hw'.answers hn) hes'.reached hw'.complete
  · have hkeys : r.memo.map Prod.fst = (ws.map Write.node).reverse := by
      rw [hw.memo]
      simp [Realization.start, Write.entry, Function.comp_def]
    rw [hkeys]
    exact List.nodup_reverse.2 hw.nodup
  · rintro before after rfl
    simp only [List.mapM_append, bind_ok, pure_ok] at hrun
    obtain ⟨answers', r', hbefore, rest, r₂, hafter, -, rfl⟩ := hrun
    simp only [List.flatMap_append, List.mem_append] at hns
    obtain ⟨fs, hfs⟩ := traced_iff.1 (places_of_makes (Making.perform_all hbefore))
    obtain ⟨vs, hv⟩ :=
      hfs.written hregular (fun n hn => hns n (.inl hn)) (owned_start target bound)
    obtain ⟨gs, hgs⟩ := traced_iff.1 (places_of_makes (Making.perform_all hafter))
    obtain ⟨us, hu⟩ := hgs.written hregular (fun n hn => hns n (.inr hn))
      (hv.owned (owned_start target bound))
    exact ⟨answers', r', hbefore, _, hu.memo.symm⟩
  · exact make_ok.2 ⟨hw.poisoned, place_ok.2 (.known hb)⟩

/-- A source, an integrator whose integrand integrates its state, and a bundle of the source and
twice the integrator. -/
def nestedLoops : Build ℚ Node := do
  let u ← Build.stimulus (.constant [1])
  let x ← Build.integrate u (some fun x => Build.integrate x (some fun y =>
    Build.linear [x, y] [.constantColumn 1 (-1), .constantColumn 1 1]))
  Build.bundle [u, x, x]

def nestedGraph : Graph ℚ := nestedLoops.graph

theorem nestedGraph_grown : nestedGraph.Grown Element.IsBuiltin [] := by
  have hall : ∀ k : BuiltinKind ℚ, k.element.IsBuiltin := fun k => ⟨k, rfl⟩
  have hk : Build.Keeps Element.IsBuiltin nestedLoops := by
    refine (Build.keeps_stimulus hall _).bind fun u => Build.Keeps.bind ?_ fun x =>
      Build.keeps_bundle hall _
    refine Build.keeps_integrate _ ?_
    rintro _ ⟨⟩ x
    refine Build.keeps_integrate _ ?_
    rintro _ ⟨⟩ y
    exact Build.keeps_linear hall _ _
  exact hk.grown

/-- The outer integrator, then an array in which the bundle stands twice. -/
def nestedMakings : List Making := [.node ⟨5⟩, .fold ⟨[3], #v[⟨6⟩, ⟨0⟩, ⟨6⟩]⟩]

theorem nestedLoops_once :
    nestedGraph.Grown Element.IsBuiltin [] ∧
      ∃ r : Realization ℚ (Network ℚ),
        (nestedMakings.mapM (Making.perform Target.network nestedGraph KeyMap.empty)).run
          (.start (.empty none)) = (.ok [[⟨1, 1⟩], [⟨4, 3⟩, ⟨0, 1⟩, ⟨4, 3⟩]], r) ∧
        (∃ es, Replayed Target.network nestedGraph KeyMap.empty es (.start (.empty none))
            { r with memo := [] } ∧ Once nestedGraph [⟨5⟩, ⟨6⟩, ⟨0⟩, ⟨6⟩] es r) ∧
        (make Target.network nestedGraph KeyMap.empty ⟨4⟩).run r = (.ok ⟨2, 1⟩, r) := by
  have hrun : ∃ r : Realization ℚ (Network ℚ),
      (nestedMakings.mapM (Making.perform Target.network nestedGraph KeyMap.empty)).run
        (.start (.empty none)) = (.ok [[⟨1, 1⟩], [⟨4, 3⟩, ⟨0, 1⟩, ⟨4, 3⟩]], r) ∧
      r.built ⟨4⟩ = some ⟨2, 1⟩ :=
    ⟨_, Prod.ext (by decide +kernel) rfl, by decide +kernel⟩
  obtain ⟨r, hrun, hb⟩ := hrun
  obtain ⟨⟨es, hes, hreplay⟩, honce, -, -, -, hagain⟩ := realized_once nestedGraph_grown hrun
  exact ⟨nestedGraph_grown, r, hrun, ⟨es, hreplay, honce es hes⟩, hagain _ _ hb⟩

end SignalGraph
