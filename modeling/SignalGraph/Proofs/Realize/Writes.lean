import Mathlib.Data.List.Nodup
import SignalGraph.Proofs.Realize.Tracing

namespace SignalGraph

open Realize Stateful

variable {α σ : Type}

/-- A handle written down for a node, with the events behind it. -/
structure Write where
  node : Node
  handle : Handle
  events : List Event

def Write.entry (w : Write) : Node × Handle := (w.node, w.handle)

/-- The events that belong to a write: an element is built, a placeholder stands for the feedback
object of its integrator, and an integrator may have its loop closed. -/
inductive Graph.Entry (g : Graph α) (built : Node → Option Handle) : Write → Prop
  | element {n : Node} {h : Handle} {rec : NodeRecord α} {e : Element α} {inputs : List Handle} :
    g.record? n = some rec → rec.kind = .element e →
    List.Forall₂ (fun m k => built m = some k) rec.inputs inputs →
    Entry g built ⟨n, h, [.build n inputs h]⟩
  | placeholder {n s : Node} {h u : Handle} {us : List Handle} {rec : NodeRecord α}
    {f : Option Node} :
    g.record? n = some rec → rec.kind = .integrate s f →
    List.Forall₂ (fun m k => built m = some k) rec.inputs (u :: us) →
    Entry g built ⟨s, h, [.feedback n u h]⟩
  | integrate {n s : Node} {h : Handle} {rec : NodeRecord α} :
    g.record? n = some rec → rec.kind = .integrate s none → built s = some h →
    Entry g built ⟨n, h, []⟩
  | closed {n s f : Node} {h rate : Handle} {rec : NodeRecord α} :
    g.record? n = some rec → rec.kind = .integrate s (some f) → built s = some h →
    built f = some rate → Entry g built ⟨n, h, [.connect n h rate]⟩

theorem Graph.Entry.mono {g : Graph α} {built built' : Node → Option Handle} {w : Write}
    (h : g.Entry built w) (hb : ∀ n k, built n = some k → built' n = some k) : g.Entry built' w := by
  cases h with
  | element hr hk hin => exact .element hr hk (hin.imp hb)
  | placeholder hr hk hin => exact .placeholder hr hk (hin.imp hb)
  | integrate hr hk hs => exact .integrate hr hk (hb _ _ hs)
  | closed hr hk hs hf => exact .closed hr hk (hb _ _ hs) (hb _ _ hf)

/-- A lookup behind writes of different nodes that were not written before. -/
theorem lookup_writes {ws : List Write} {memo : List (Node × Handle)}
    (hnodup : (ws.map Write.node).Nodup) (hfresh : ∀ w ∈ ws, memo.lookup w.node = none) {n : Node}
    {k : Handle} : ((ws.map Write.entry).reverse ++ memo).lookup n = some k ↔
      memo.lookup n = some k ∨ ∃ w ∈ ws, w.node = n ∧ w.handle = k := by
  induction ws generalizing memo with
  | nil => simp
  | cons w ws ih =>
    have hcons : ∀ m : Node, (w.entry :: memo).lookup m =
        if m = w.node then some w.handle else memo.lookup m := by
      intro m
      by_cases hm : m = w.node
      · simp [Write.entry, hm]
      · have hb : (m == w.node) = false := by simpa using hm
        simp [Write.entry, List.lookup_cons, hb, hm]
    obtain ⟨hnot, hnodup⟩ := List.nodup_cons.1 hnodup
    have hfresh' : ∀ w' ∈ ws, (w.entry :: memo).lookup w'.node = none := by
      intro w' hw'
      have hne : w'.node ≠ w.node := fun he => hnot (List.mem_map.2 ⟨w', hw', he⟩)
      rw [hcons, if_neg hne]
      exact hfresh w' (List.mem_cons_of_mem _ hw')
    have hnone := hfresh w List.mem_cons_self
    rw [List.map_cons, List.reverse_cons, List.append_assoc, List.singleton_append,
      ih hnodup hfresh', hcons, List.exists_mem_cons_iff]
    by_cases hn : n = w.node
    · subst hn
      simp [hnone]
    · simp [hn, Ne.symm hn]

namespace Realization

variable {g : Graph α} {bound : Nat} {r r' r'' : Realization α σ} {ws ws' : List Write}

/-- The writes of nodes before place `bound` that lead from one realization to another. None of the
nodes was known before, and none is written twice. -/
structure Logged (g : Graph α) (bound : Nat) (r r' : Realization α σ) (ws : List Write) : Prop where
  memo : r'.memo = (ws.map Write.entry).reverse ++ r.memo
  poisoned : r'.poisoned = r.poisoned
  nodup : (ws.map Write.node).Nodup
  fresh : ∀ w ∈ ws, r.built w.node = none ∧ w.node.index < bound
  entries : ∀ w ∈ ws, g.Entry r'.built w

namespace Logged

/-- What is known after the writes. -/
theorem built_iff (h : Logged g bound r r' ws) {n : Node} {k : Handle} :
    r'.built n = some k ↔ r.built n = some k ∨ ∃ w ∈ ws, w.node = n ∧ w.handle = k := by
  rw [built, h.memo]
  exact lookup_writes h.nodup fun w hw => (h.fresh w hw).1

theorem keeps (h : Logged g bound r r' ws) (n : Node) (k : Handle) (hb : r.built n = some k) :
    r'.built n = some k :=
  h.built_iff.2 (.inl hb)

theorem written (h : Logged g bound r r' ws) {w : Write} (hw : w ∈ ws) :
    r'.built w.node = some w.handle :=
  h.built_iff.2 (.inr ⟨w, hw, rfl, rfl⟩)

theorem refl (g : Graph α) (bound : Nat) (r : Realization α σ) : Logged g bound r r [] :=
  ⟨rfl, rfl, .nil, nofun, nofun⟩

theorem mono {bound' : Nat} (h : Logged g bound r r' ws) (hle : bound ≤ bound') :
    Logged g bound' r r' ws :=
  { h with fresh := fun w hw => ⟨(h.fresh w hw).1, Nat.lt_of_lt_of_le (h.fresh w hw).2 hle⟩ }

theorem append (h : Logged g bound r r' ws) (h' : Logged g bound r' r'' ws') :
    Logged g bound r r'' (ws ++ ws') where
  memo := by rw [h'.memo, h.memo, List.map_append, List.reverse_append, List.append_assoc]
  poisoned := h'.poisoned.trans h.poisoned
  nodup := by
    rw [List.map_append]
    refine List.Nodup.append h.nodup h'.nodup fun n hn hn' => ?_
    obtain ⟨w, hw, rfl⟩ := List.mem_map.1 hn
    obtain ⟨w', hw', he⟩ := List.mem_map.1 hn'
    have hb := h.written hw
    rw [← he, (h'.fresh w' hw').1] at hb
    cases hb
  fresh w hw := by
    rcases List.mem_append.1 hw with hw | hw
    · exact h.fresh w hw
    · obtain ⟨hnone, hlt⟩ := h'.fresh w hw
      refine ⟨?_, hlt⟩
      cases hb : r.built w.node with
      | none => rfl
      | some k =>
        rw [h.keeps _ _ hb] at hnone
        cases hnone
  entries w hw := by
    rcases List.mem_append.1 hw with hw | hw
    · exact (h.entries w hw).mono h'.keeps
    · exact h'.entries w hw

/-- A node that lies at the bound or behind it is not known from the writes. -/
theorem unknown (h : Logged g bound r r' ws) {n : Node} (hn : r.built n = none)
    (hle : bound ≤ n.index) : r'.built n = none := by
  cases hb : r'.built n with
  | none => rfl
  | some k =>
    rcases h.built_iff.1 hb with hb | ⟨w, hw, rfl, -⟩
    · rw [hn] at hb
      cases hb
    · exact absurd (h.fresh w hw).2 (Nat.not_lt.2 hle)

/-- A write behind calls on the target. -/
theorem write {q : Realization α σ} {w : Write} (h : Logged g bound r r' ws)
    (hq : q.memo = r'.memo ∧ q.poisoned = r'.poisoned) (hnone : r'.built w.node = none)
    (hlt : w.node.index < bound) (he : g.Entry r'.built w) :
    Logged g bound r (q.write w.node w.handle) (ws ++ [w]) := by
  have hmemo : (q.write w.node w.handle).memo = ([w].map Write.entry).reverse ++ r'.memo := by
    rw [Realization.write, hq.1]
    rfl
  have hfresh : ∀ v ∈ [w], r'.built v.node = none ∧ v.node.index < bound := by
    intro v hv
    rw [List.mem_singleton.1 hv]
    exact ⟨hnone, hlt⟩
  refine h.append ⟨hmemo, hq.2, List.nodup_singleton _, hfresh, fun v hv => ?_⟩
  rw [List.mem_singleton.1 hv]
  refine he.mono fun n k hb => ?_
  rw [built, hmemo]
  have hnodup : ([w].map Write.node).Nodup := List.nodup_singleton _
  exact (lookup_writes hnodup fun v hv => (hfresh v hv).1).2 (.inl hb)

end Logged

/-- The placeholders that are known belong to integrators that are known or lie at place `bound` or
behind it. -/
def Owned (g : Graph α) (bound : Nat) (r : Realization α σ) : Prop :=
  ∀ (o : Nat) (s : Node) (k : Handle), g.Owns o s → r.built s = some k →
    (∃ k', r.built ⟨o⟩ = some k') ∨ bound ≤ o

/-- With a placeholder its integrator is written. -/
def Complete (g : Graph α) (ws : List Write) : Prop :=
  ∀ (o : Nat) (s : Node), g.Owns o s → s ∈ ws.map Write.node → ⟨o⟩ ∈ ws.map Write.node

theorem Owned.mono {bound' : Nat} (h : r.Owned g bound) (hle : bound' ≤ bound) :
    r.Owned g bound' :=
  fun o s k ho hb => (h o s k ho hb).imp_right (Nat.le_trans hle)

theorem Owned.logged {bound' : Nat} (h : r.Owned g bound) (hl : Logged g bound' r r' ws)
    (hc : Complete g ws) : r'.Owned g bound := by
  intro o s k ho hb
  rcases hl.built_iff.1 hb with hb | ⟨w, hw, rfl, -⟩
  · rcases h o s k ho hb with ⟨k', hb'⟩ | hle
    · exact .inl ⟨k', hl.keeps _ _ hb'⟩
    · exact .inr hle
  · obtain ⟨v, hv, he⟩ := List.mem_map.1 (hc o w.node ho (List.mem_map.2 ⟨w, hw, rfl⟩))
    exact .inl ⟨v.handle, he ▸ hl.written hv⟩

theorem Complete.append (h : Complete g ws) (h' : Complete g ws') : Complete g (ws ++ ws') := by
  intro o s ho hs
  rw [List.map_append, List.mem_append] at hs ⊢
  exact hs.imp (h o s ho) (h' o s ho)

/-- The writes of a trace: they bring its events, with a placeholder its integrator is written, and
the nodes that were asked for are known by the handles that were answered. -/
structure Written (g : Graph α) (bound : Nat) (ns : List Node) (r : Realization α σ)
    (es : List Event) (hs : List Handle) (r' : Realization α σ) (ws : List Write) : Prop
    extends Logged g bound r r' ws where
  events : ws.flatMap Write.events = es
  complete : Complete g ws
  answers : List.Forall₂ (fun n k => r'.built n = some k) ns hs

namespace Written

variable {ns ms : List Node} {es fs : List Event} {hs ks : List Handle}

theorem append (h : Written g bound ns r es hs r' ws) (h' : Written g bound ms r' fs ks r'' ws') :
    Written g bound (ns ++ ms) r (es ++ fs) (hs ++ ks) r'' (ws ++ ws') where
  toLogged := h.toLogged.append h'.toLogged
  events := by rw [List.flatMap_append, h.events, h'.events]
  complete := h.complete.append h'.complete
  answers := List.rel_append (h.answers.imp h'.keeps) h'.answers

theorem owned {bound' : Nat} (h : Written g bound ns r es hs r' ws) (ho : r.Owned g bound') :
    r'.Owned g bound' :=
  ho.logged h.toLogged h.complete

theorem answer {n : Node} {k : Handle} (h : Written g bound [n] r es [k] r' ws) :
    r'.built n = some k := by
  cases h.answers with
  | cons hb _ => exact hb

end Written

end Realization

/-- An integrator and its placeholder. -/
theorem Graph.Regular.owns {g : Graph α} {allowed : Element α → Prop} {opens : List Node}
    (h : g.Regular allowed opens) {o : Nat} {s : Node} (ho : g.Owns o s) :
    ∃ u f, g.records[o]? = some ⟨.integrate s f, [u], g.sizeOf u, .empty, .empty⟩ ∧
      g.record? s = some ⟨.state, [u], g.sizeOf u, .empty, .empty⟩ := by
  obtain ⟨rec, f, hr, hk⟩ := ho
  cases h.record o rec hr with
  | @integrate s' u f' hne hs hf =>
    cases hk
    exact ⟨u, f, hr, hs⟩
  | _ => cases hk

namespace Realize

open Realization

variable {t : Target α σ} {g : Graph α} {defaults : Defaults α} {r r' : Realization α σ}

theorem onTarget_keeps {β : Type} {call : Effect σ β} {b : β}
    (h : (onTarget call : Realize α σ β).run r = (.ok b, r')) :
    r'.memo = r.memo ∧ r'.poisoned = r.poisoned := by
  obtain ⟨_, -, rfl⟩ := onTarget_ok.1 h
  exact ⟨rfl, rfl⟩

theorem converse_keeps {l : Lowering α} {h : Handle}
    (hc : (converse t l).run r = (.ok h, r')) :
    r'.memo = r.memo ∧ r'.poisoned = r.poisoned := by
  induction l generalizing r with
  | done k =>
    obtain ⟨-, rfl⟩ := pure_ok.1 hc
    exact ⟨rfl, rfl⟩
  | fail e => exact absurd hc throw_ok
  | create q next ih =>
    simp only [converse, bind_ok] at hc
    obtain ⟨k, r₁, hk, hc⟩ := hc
    obtain ⟨hmemo, hpoisoned⟩ := ih k hc
    obtain ⟨hmemo', hpoisoned'⟩ := onTarget_keeps hk
    exact ⟨hmemo.trans hmemo', hpoisoned.trans hpoisoned'⟩
  | connect a b next ih =>
    simp only [converse, bind_ok] at hc
    obtain ⟨_, r₁, hk, hc⟩ := hc
    obtain ⟨hmemo, hpoisoned⟩ := ih hc
    obtain ⟨hmemo', hpoisoned'⟩ := onTarget_keeps hk
    exact ⟨hmemo.trans hmemo', hpoisoned.trans hpoisoned'⟩
  | partialConnections next ih =>
    simp only [converse, bind_ok, get_ok] at hc
    obtain ⟨_, _, ⟨rfl, rfl⟩, hc⟩ := hc
    exact ih _ hc
  | report q next ih =>
    simp only [converse, bind_ok, modify_ok] at hc
    obtain ⟨_, _, rfl, hc⟩ := hc
    obtain ⟨hmemo, hpoisoned⟩ := ih hc
    exact ⟨hmemo, hpoisoned⟩

variable {allowed : Element α → Prop} {opens : List Node} (hg : g.Regular allowed opens)

include hg

/-- A node that is no placeholder leaves the writes complete. -/
theorem complete_other {ws : List Write} {w : Write} {rec : NodeRecord α} (hc : Complete g ws)
    (hr : g.record? w.node = some rec) (hk : rec.kind ≠ .state) : Complete g (ws ++ [w]) := by
  refine hc.append fun o s ho hs => ?_
  rw [List.map_singleton, List.mem_singleton] at hs
  subst hs
  obtain ⟨u, f, -, hs⟩ := hg.owns ho
  cases hr.symm.trans hs
  exact absurd rfl hk

/-- A placeholder and, later, its integrator leave the writes complete. -/
theorem complete_loop {ws fs : List Write} {w v : Write} (hc : Complete g ws) (hf : Complete g fs)
    (ho : g.Owns v.node.index w.node) : Complete g (ws ++ [w] ++ fs ++ [v]) := by
  obtain ⟨rec, f, hr, hk⟩ := id ho
  intro o s ho' hs
  simp only [List.map_append, List.map_singleton, List.mem_append, List.mem_singleton] at hs ⊢
  rcases hs with ((hs | rfl) | hs) | rfl
  · exact .inl (.inl (.inl (hc o s ho' hs)))
  · rw [hg.owner _ _ _ ho' ho]
    exact .inr rfl
  · exact .inl (.inr (hf o s ho' hs))
  · obtain ⟨u, f', -, hstate⟩ := hg.owns ho'
    cases hr.symm.trans hstate
    cases hk

/-- The placeholder of an integrator is written before anything else of the loop. -/
theorem opened_logged {n s : Node} {rec : NodeRecord α} {f : Option Node} {u h : Handle}
    {us : List Handle} {ins : List Event} {r₁ r₂ : Realization α σ} {ws : List Write} {bound : Nat}
    (hn : n.index < bound) (hb : r.built n = none) (hr : g.record? n = some rec)
    (hk : rec.kind = .integrate s f) (ho : r.Owned g bound)
    (hin : Written g n.index rec.inputs r ins (u :: us) r₁ ws)
    (hq : r₂.memo = r₁.memo ∧ r₂.poisoned = r₁.poisoned) :
    Logged g n.index r (r₂.write s h) (ws ++ [⟨s, h, [.feedback n u h]⟩]) ∧
      (r₂.write s h).Owned g n.index := by
  have howns : g.Owns n.index s := ⟨rec, f, hr, hk⟩
  have hs : r₁.built s = none := by
    cases hs : r₁.built s with
    | none => rfl
    | some k =>
      rcases hin.owned ho n.index s k howns hs with ⟨k', hb'⟩ | hle
      · rw [hin.unknown hb (Nat.le_refl _)] at hb'
        cases hb'
      · exact absurd hn (Nat.not_lt.2 hle)
  have hl := hin.write (w := ⟨s, h, [.feedback n u h]⟩) hq hs howns.lt.1
    (.placeholder hr hk hin.answers)
  refine ⟨hl, fun o s' k ho' hb' => ?_⟩
  rcases hl.built_iff.1 hb' with hb' | ⟨w, hw, rfl, -⟩
  · rcases ho o s' k ho' hb' with ⟨k', hk'⟩ | hle
    · exact .inl ⟨k', hl.keeps _ _ hk'⟩
    · exact .inr (Nat.le_trans (Nat.le_of_lt hn) hle)
  · rcases List.mem_append.1 hw with hw | hw
    · obtain ⟨v, hv, he⟩ := List.mem_map.1 (hin.complete o w.node ho' (List.mem_map.2 ⟨w, hw, rfl⟩))
      exact .inl ⟨v.handle, he ▸ hl.written (List.mem_append_left _ hv)⟩
    · rw [List.mem_singleton.1 hw] at ho'
      exact .inr (Nat.le_of_eq (hg.owner _ _ _ howns ho'))

section

variable {n s : Node} {rec : NodeRecord α} {u h : Handle} {us : List Handle} {ins : List Event}
  {r₁ r₂ : Realization α σ} {ws : List Write} {bound : Nat}

theorem element_written {e : Element α} {inputs : List Handle} (hn : n.index < bound)
    (hb : r.built n = none) (hr : g.record? n = some rec) (hk : rec.kind = .element e)
    (hin : Written g n.index rec.inputs r ins inputs r₁ ws)
    (hq : r₂.memo = r₁.memo ∧ r₂.poisoned = r₁.poisoned) :
    Written g bound [n] r (ins ++ [.build n inputs h]) [h] (r₂.write n h)
      (ws ++ [⟨n, h, [.build n inputs h]⟩]) := by
  have hl := (hin.mono (Nat.le_of_lt hn)).write (w := ⟨n, h, [.build n inputs h]⟩) hq
    (hin.unknown hb (Nat.le_refl _)) hn (.element hr hk hin.answers)
  refine ⟨hl, ?_, complete_other hg hin.complete hr (by rw [hk]; exact nofun), .cons ?_ .nil⟩
  · simp [hin.events]
  · exact hl.written (List.mem_append_right _ (List.mem_singleton_self _))

theorem integrate_written (hn : n.index < bound) (hb : r.built n = none)
    (hr : g.record? n = some rec) (hk : rec.kind = .integrate s none) (ho : r.Owned g bound)
    (hin : Written g n.index rec.inputs r ins (u :: us) r₁ ws)
    (hq : r₂.memo = r₁.memo ∧ r₂.poisoned = r₁.poisoned) :
    Written g bound [n] r (ins ++ [.feedback n u h]) [h] ((r₂.write s h).write n h)
      (ws ++ [⟨s, h, [.feedback n u h]⟩] ++ [⟨n, h, []⟩]) := by
  obtain ⟨hl₁, -⟩ := opened_logged hg (h := h) hn hb hr hk ho hin hq
  have hopened := hl₁.written (List.mem_append_right _ (List.mem_singleton_self _))
  have hl := (hl₁.mono (Nat.le_of_lt hn)).write (q := r₂.write s h) (w := ⟨n, h, []⟩)
    ⟨rfl, rfl⟩ (hl₁.unknown hb (Nat.le_refl _)) hn (.integrate hr hk hopened)
  refine ⟨hl, ?_, ?_, .cons ?_ .nil⟩
  · simp [hin.events]
  · have hnone : Complete g [] := nofun
    have hloop := complete_loop hg (w := ⟨s, h, [.feedback n u h]⟩) (v := ⟨n, h, []⟩)
      hin.complete hnone ⟨rec, none, hr, hk⟩
    rwa [List.append_nil] at hloop
  · exact hl.written (List.mem_append_right _ (List.mem_singleton_self _))

theorem closed_written {f : Node} {rate : Handle} {fs : List Event} {vs : List Write}
    {r₃ r₄ : Realization α σ} (hn : n.index < bound) (hb : r.built n = none)
    (hr : g.record? n = some rec) (hk : rec.kind = .integrate s (some f)) (ho : r.Owned g bound)
    (hin : Written g n.index rec.inputs r ins (u :: us) r₁ ws)
    (hq : r₂.memo = r₁.memo ∧ r₂.poisoned = r₁.poisoned)
    (hf : Written g n.index [f] (r₂.write s h) fs [rate] r₃ vs)
    (hq' : r₄.memo = r₃.memo ∧ r₄.poisoned = r₃.poisoned) :
    Written g bound [n] r (ins ++ .feedback n u h :: (fs ++ [.connect n h rate])) [h] (r₄.write n h)
      (ws ++ [⟨s, h, [.feedback n u h]⟩] ++ vs ++ [⟨n, h, [.connect n h rate]⟩]) := by
  obtain ⟨hl₁, -⟩ := opened_logged hg (h := h) hn hb hr hk ho hin hq
  have hopened := hl₁.written (List.mem_append_right _ (List.mem_singleton_self _))
  have hl₂ := hl₁.append hf.toLogged
  have hl := (hl₂.mono (Nat.le_of_lt hn)).write (w := ⟨n, h, [.connect n h rate]⟩) hq'
    (hl₂.unknown hb (Nat.le_refl _)) hn (.closed hr hk (hf.keeps _ _ hopened) hf.answer)
  refine ⟨hl, ?_, ?_, .cons ?_ .nil⟩
  · simp [hin.events, hf.events]
  · exact complete_loop hg (w := ⟨s, h, [.feedback n u h]⟩) (v := ⟨n, h, [.connect n h rate]⟩)
      hin.complete hf.complete ⟨rec, some f, hr, hk⟩
  · exact hl.written (List.mem_append_right _ (List.mem_singleton_self _))

end

/-- A trace falls into writes. -/
theorem Traced.written {ns : List Node} {es : List Event} {hs : List Handle}
    (h : Traced t g defaults ns r es hs r') {bound : Nat} (hns : ∀ n ∈ ns, n.index < bound)
    (ho : r.Owned g bound) : ∃ ws, Written g bound ns r es hs r' ws := by
  induction h generalizing bound with
  | nil r => exact ⟨[], .refl g bound r, rfl, nofun, .nil⟩
  | known hb _ ih =>
    obtain ⟨ws, hw⟩ := ih (fun n hn => hns n (List.mem_cons_of_mem _ hn)) ho
    exact ⟨ws, hw.toLogged, hw.events, hw.complete, .cons (hw.keeps _ _ hb) hw.answers⟩
  | @element n _ _ _ inputs h _ _ _ _ _ _ _ _ hb hr hk _ _ _ hc _ _ ihin ih =>
    have hn := hns n List.mem_cons_self
    obtain ⟨ws, hin⟩ := ihin (Graph.inputs_lt hr) (ho.mono (Nat.le_of_lt hn))
    have hone := element_written hg (h := h) hn hb hr hk hin (converse_keeps hc)
    obtain ⟨ws', hrest⟩ := ih (fun m hm => hns m (List.mem_cons_of_mem _ hm)) (hone.owned ho)
    rw [List.append_cons]
    exact ⟨_, hone.append hrest⟩
  | @integrate n s _ u us h _ _ _ _ _ _ _ _ hb hr hk _ hc _ ihin ih =>
    have hn := hns n List.mem_cons_self
    obtain ⟨ws, hin⟩ := ihin (Graph.inputs_lt hr) (ho.mono (Nat.le_of_lt hn))
    have hone := integrate_written hg (h := h) hn hb hr hk ho hin (onTarget_keeps hc)
    obtain ⟨ws', hrest⟩ := ih (fun m hm => hns m (List.mem_cons_of_mem _ hm)) (hone.owned ho)
    rw [List.append_cons]
    exact ⟨_, hone.append hrest⟩
  | @closed n s f _ u us h rate ins fs _ _ _ _ _ _ es _ _ hb hr hk _ hc _ hconnect _ ihin ihf ih =>
    have hn := hns n List.mem_cons_self
    obtain ⟨ws, hin⟩ := ihin (Graph.inputs_lt hr) (ho.mono (Nat.le_of_lt hn))
    obtain ⟨-, ho₁⟩ := opened_logged hg (h := h) hn hb hr hk ho hin (onTarget_keeps hc)
    obtain ⟨vs, hf⟩ := ihf (List.forall_mem_singleton.2 (Graph.integrand_lt hr hk)) ho₁
    have hone :=
      closed_written hg hn hb hr hk ho hin (onTarget_keeps hc) hf (onTarget_keeps hconnect)
    obtain ⟨ws', hrest⟩ := ih (fun m hm => hns m (List.mem_cons_of_mem _ hm)) (hone.owned ho)
    have hsplit : ins ++ .feedback n u h :: (fs ++ .connect n h rate :: es) =
        ins ++ .feedback n u h :: (fs ++ [.connect n h rate]) ++ es := by simp
    rw [hsplit]
    exact ⟨_, hone.append hrest⟩

end Realize

end SignalGraph
