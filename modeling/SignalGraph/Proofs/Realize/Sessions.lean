import SignalGraph.Proofs.Lowering.Realized
import SignalGraph.Proofs.Network.Histories
import SignalGraph.Proofs.Realize.Poisoning

namespace SignalGraph

open Realize Realization Stateful

variable {α : Type} [Scalar α]

namespace Network

variable {net net' net'' : Network α}

/-- A network that has the objects of another as they are, and maybe more. -/
structure Continues (net net' : Network α) : Prop where
  size : net.size ≤ net'.size
  objects : ∀ j < net.size, net'.objects[j]? = net.objects[j]?

omit [Scalar α]

theorem Continues.refl (net : Network α) : net.Continues net := ⟨Nat.le_refl _, fun _ _ => rfl⟩

theorem Continues.trans (h : net.Continues net') (h' : net'.Continues net'') :
    net.Continues net'' where
  size := Nat.le_trans h.size h'.size
  objects j hj := (h'.objects j (Nat.lt_of_lt_of_le hj h.size)).trans (h.objects j hj)

theorem Continues.object (h : net.Continues net') {j : Nat} {o : ObjectRecord α}
    (ho : net.objects[j]? = some o) : net'.objects[j]? = some o :=
  (h.objects j (Array.getElem?_eq_some_iff.1 ho).1).trans ho

theorem push_continues (net : Network α) (o : NetworkObject α) (n : Nat) :
    net.Continues (net.push o n).2 where
  size := by simp [push, size]
  objects j hj := by
    have hne : j ≠ net.objects.size := Nat.ne_of_lt hj
    simp only [push]
    rw [Array.getElem?_push, if_neg hne]

/-- A loop of a new object is closed without a change to the old ones. -/
theorem Continues.connect (h : net.Continues net') {w f : Handle} (hw : net.size ≤ w.id)
    (hc : net'.connect w f = .ok net'') : net.Continues net'' := by
  obtain ⟨-, -, input, -, rfl⟩ := connect_eq_ok.1 hc
  refine ⟨?_, fun j hj => ?_⟩
  · simpa [Network.size] using h.size
  · rw [← h.objects j hj]
    exact Array.getElem?_setIfInBounds_ne (Nat.ne_of_gt (Nat.lt_of_lt_of_le hj hw))

end Network

namespace Realization

variable {g g' : Graph α} {r r' : Realization α (Network α)}

/-- Every known node has an object of its size. -/
structure Sized (g : Graph α) (r : Realization α (Network α)) : Prop where
  reachable : r.target.Reachable
  known : ∀ n h, r.built n = some h →
    n.index < g.size ∧ r.target.holds h = true ∧ h.size = g.sizeOf n

namespace Sized

/-- Handles of known nodes name objects. -/
theorem holds (h : r.Sized g) {ns : List Node} {ks : List Handle}
    (hks : List.Forall₂ (fun m k => r.built m = some k) ns ks) :
    ∀ k ∈ ks, r.target.holds k = true := by
  intro k hk
  obtain ⟨m, -, hm⟩ := forall₂_mem_right hks hk
  exact (h.known m k hm).2.1

/-- Known nodes have the sizes of their handles. -/
theorem sizes (h : r.Sized g) {ns : List Node} {ks : List Handle}
    (hks : List.Forall₂ (fun m k => r.built m = some k) ns ks) :
    ns.map g.sizeOf = ks.map Handle.size :=
  forall₂_map_eq (hks.imp fun m k hm => (h.known m k hm).2.2.symm)

theorem on (h : r.Sized g) {net : Network α} (hr : net.Reachable) (hg : r.target.Grows net) :
    ({ r with target := net } : Realization α (Network α)).Sized g where
  reachable := hr
  known n k hb := by
    obtain ⟨hn, hh, hs⟩ := h.known n k hb
    exact ⟨hn, hg.holds hh, hs⟩

theorem write (h : r.Sized g) {n : Node} {k : Handle} (hn : n.index < g.size)
    (hh : r.target.holds k = true) (hs : k.size = g.sizeOf n) : (r.write n k).Sized g where
  reachable := h.reachable
  known m w hb := by
    rw [Realization.write, built_cons] at hb
    split at hb
    · rename_i hm
      cases hb
      subst hm
      exact ⟨hn, hh, hs⟩
    · exact h.known m w hb

theorem create (h : r.Sized g) {q : Request α} {k : Handle} {net : Network α}
    (hc : r.target.create q = .ok (k, net)) :
    ({ r with target := net } : Realization α (Network α)).Sized g ∧ r.target.Continues net ∧
      net.objects[k.id]? = some ⟨q.object, k.size⟩ ∧ k.size = q.size ∧ r.target.size ≤ k.id := by
  obtain ⟨hid, hobject, -⟩ := Network.create_object hc
  obtain ⟨⟨hk, hnet⟩, -⟩ := Network.create_eq_ok.1 hc
  refine ⟨h.on (h.reachable.create hc) ?_, ?_, hobject, congrArg Handle.size hk, Nat.le_of_eq hid.symm⟩
  · exact hnet ▸ Network.push_grows _ _ _
  · exact hnet ▸ Network.push_continues _ _ _

/-- The conversation of a built-in kind ends with an object. -/
theorem converse (h : r.Sized g) {kind : BuiltinKind α} {config : ResolvedConfig α}
    {ns : List Node} {inputs : List Handle} {k : Handle}
    (hin : List.Forall₂ (fun m w => r.built m = some w) ns inputs)
    (hc : (Realize.converse Target.network (kind.element.lower inputs config)).run r = (.ok k, r')) :
    r'.Sized g ∧ r.target.Continues r'.target ∧ r'.target.holds k = true := by
  rcases BuiltinKind.converse_ok hc with ⟨-, ⟨rest, rfl⟩, rfl⟩ | ⟨q, net, -, hcreate, rfl⟩
  · exact ⟨h, .refl _, h.holds hin k List.mem_cons_self⟩
  · obtain ⟨hs, hcont, hobject, -⟩ := h.create hcreate
    exact ⟨hs, hcont, Network.holds_iff.2 ⟨_, hobject, rfl⟩⟩

end Sized

end Realization

/-- The elements of a graph of built-in elements are built in. -/
theorem Graph.Regular.isBuiltin {g : Graph α} {opens : List Node}
    (hg : g.Regular Element.IsBuiltin opens) {n : Node} {rec : NodeRecord α} {e : Element α}
    (hr : g.record? n = some rec) (hk : rec.kind = .element e) : e.IsBuiltin := by
  cases hg.record _ _ hr with
  | element he =>
    cases hk
    exact he
  | configure =>
    cases hk
    exact ⟨.configure, rfl⟩
  | state => cases hk
  | integrate => cases hk

namespace Realize

variable {g : Graph α} {opens : List Node} {defaults : Defaults α} {ns : List Node}
  {es : List Event} {hs : List Handle} {r r' : Realization α (Network α)} {bound : Nat}

/-- Whatever an element asks of a network is a call. -/
theorem converse_reachable {l : Lowering α} {k : Handle} (hr : r.target.Reachable)
    (hc : (converse Target.network l).run r = (.ok k, r')) : r'.target.Reachable := by
  induction l generalizing r with
  | done k =>
    obtain ⟨-, rfl⟩ := pure_ok.1 hc
    exact hr
  | fail e => exact absurd hc throw_ok
  | create q next ih =>
    simp only [converse, bind_ok, create_ok] at hc
    obtain ⟨k, _, ⟨net, hcreate, rfl⟩, hc⟩ := hc
    exact ih k (hr.create hcreate) hc
  | connect a b next ih =>
    simp only [converse, bind_ok, connect_ok] at hc
    obtain ⟨_, _, ⟨net, hconnect, rfl⟩, hc⟩ := hc
    exact ih (hr.connect hconnect) hc
  | partialConnections next ih =>
    simp only [converse, bind_ok, get_ok] at hc
    obtain ⟨_, _, ⟨rfl, rfl⟩, hc⟩ := hc
    exact ih _ hr hc
  | report q next ih =>
    simp only [converse, bind_ok, modify_ok] at hc
    obtain ⟨_, _, rfl, hc⟩ := hc
    refine ih ?_ hc
    exact hr

/-- Elements of any kind are realized by calls on the network. -/
theorem Replayed.reachable (h : Replayed Target.network g defaults es r r')
    (hr : r.target.Reachable) : r'.target.Reachable := by
  induction h with
  | nil r => exact hr
  | build _ _ _ hc _ ih => exact ih (converse_reachable hr hc)
  | feedback hc _ ih =>
    obtain ⟨net, hcreate, rfl⟩ := create_ok.1 hc
    exact ih (hr.create hcreate)
  | connect hc _ ih =>
    obtain ⟨net, hconnect, rfl⟩ := connect_ok.1 hc
    exact ih (hr.connect hconnect)

theorem make_reachable {n : Node} {k : Handle} (hr : r.target.Reachable)
    (hm : (make Target.network g defaults n).run r = (.ok k, r')) : r'.target.Reachable := by
  obtain ⟨es, ht⟩ := traced_of_place (make_ok.1 hm).2
  exact (ht.replayed []).reachable hr

/-- The feedback object of an integrator is new and of the integrator's size. -/
theorem opened_sized {allowed : Element α → Prop} (hg : g.Regular allowed opens) (hr : r.Sized g)
    {n s : Node} {rec : NodeRecord α} {f : Option Node} {u k : Handle} {us : List Handle}
    (hrec : g.record? n = some rec) (hk : rec.kind = .integrate s f)
    (hall : List.Forall₂ (fun m w => r.built m = some w) rec.inputs (u :: us))
    (hc : (onTarget (Target.network.create (.feedback u))).run r = (.ok k, r')) :
    (r'.write s k).Sized g ∧ r.target.Continues r'.target ∧
      r'.target.objects[k.id]? = some ⟨.feedback u none, k.size⟩ ∧ k.size = g.sizeOf n ∧
        r.target.size ≤ k.id := by
  obtain ⟨m, f', ho, hstate⟩ := hg.owns ⟨rec, f, hrec, hk⟩
  cases hrec.symm.trans ho
  obtain ⟨net, hcreate, rfl⟩ := create_ok.1 hc
  obtain ⟨hs, hcont, hobject, hsize, hid⟩ := hr.create hcreate
  have hu : u.size = g.sizeOf m := by
    cases hall with
    | cons hm _ => exact (hr.known m u hm).2.2
  have hks : k.size = g.sizeOf m := hsize.trans hu
  refine ⟨hs.write (Graph.lt_size hstate) (Network.holds_iff.2 ⟨_, hobject, rfl⟩) ?_, hcont, hobject,
    hks.trans (Graph.sizeOf_record hrec).symm, hid⟩
  exact hks.trans (Graph.sizeOf_record hstate).symm

/-- Runs make objects of the sizes that the graph tells, behind the objects that are there. -/
theorem Traced.sized (hg : g.Regular Element.IsBuiltin opens)
    (h : Traced Target.network g defaults ns r es hs r') (hns : ∀ n ∈ ns, n.index < bound)
    (ho : r.Owned g bound) (hr : r.Sized g) : r'.Sized g ∧ r.target.Continues r'.target := by
  induction h generalizing bound with
  | nil r => exact ⟨hr, .refl _⟩
  | known _ _ ih => exact ih (fun m hm => hns m (List.mem_cons_of_mem _ hm)) ho hr
  | @element _ _ _ _ _ h _ _ _ _ _ _ _ _ hb hrec hk _ _ hin hc hsize _ ihin ih =>
    have hn := hns _ List.mem_cons_self
    have hins := Graph.inputs_lt hrec
    have ho₁ := ho.mono (Nat.le_of_lt hn)
    obtain ⟨ws, hw⟩ := hin.written hg hins ho₁
    obtain ⟨hs₁, hcont₁⟩ := ihin hins ho₁ hr
    obtain ⟨kind, rfl⟩ := hg.isBuiltin hrec hk
    obtain ⟨hs₂, hcont₂, hholds⟩ := hs₁.converse hw.answers hc
    have hs₃ := hs₂.write (Graph.lt_size hrec) hholds (hsize.trans (Graph.sizeOf_record hrec).symm)
    have ho₃ := (element_written hg (h := h) hn hb hrec hk hw (converse_keeps hc)).owned ho
    obtain ⟨hs', hcont'⟩ := ih (fun m hm => hns m (List.mem_cons_of_mem _ hm)) ho₃ hs₃
    exact ⟨hs', (hcont₁.trans hcont₂).trans hcont'⟩
  | @integrate _ _ _ _ _ h _ _ _ _ _ _ _ _ hb hrec hk hin hc _ ihin ih =>
    have hn := hns _ List.mem_cons_self
    have hins := Graph.inputs_lt hrec
    have ho₁ := ho.mono (Nat.le_of_lt hn)
    obtain ⟨ws, hw⟩ := hin.written hg hins ho₁
    obtain ⟨hs₁, hcont₁⟩ := ihin hins ho₁ hr
    obtain ⟨hs₂, hcont₂, hobject, hsize, -⟩ := opened_sized hg hs₁ hrec hk hw.answers hc
    have hs₃ := hs₂.write (Graph.lt_size hrec) (Network.holds_iff.2 ⟨_, hobject, rfl⟩) hsize
    have ho₃ := (integrate_written hg (h := h) hn hb hrec hk ho hw (onTarget_keeps hc)).owned ho
    obtain ⟨hs', hcont'⟩ := ih (fun m hm => hns m (List.mem_cons_of_mem _ hm)) ho₃ hs₃
    exact ⟨hs', (hcont₁.trans hcont₂).trans hcont'⟩
  | @closed n _ f _ _ _ h _ _ _ _ _ _ _ _ _ _ _ _ hb hrec hk hin hc hf hconnect _ ihin ihf ih =>
    have hn := hns _ List.mem_cons_self
    have hins := Graph.inputs_lt hrec
    have hfs : ∀ m ∈ [f], m.index < n.index :=
      List.forall_mem_singleton.2 (Graph.integrand_lt hrec hk)
    have ho₁ := ho.mono (Nat.le_of_lt hn)
    obtain ⟨ws, hw⟩ := hin.written hg hins ho₁
    obtain ⟨hs₁, hcont₁⟩ := ihin hins ho₁ hr
    obtain ⟨hs₂, hcont₂, hobject, hsize, hid⟩ := opened_sized hg hs₁ hrec hk hw.answers hc
    obtain ⟨-, ho₂⟩ := opened_logged hg (h := h) hn hb hrec hk ho hw (onTarget_keeps hc)
    obtain ⟨vs, hv⟩ := hf.written hg hfs ho₂
    obtain ⟨hs₃, hcont₃⟩ := ihf hfs ho₂ hs₂
    -- The loop is closed on the object that was opened, which is behind those of the beginning.
    obtain ⟨net, hnet, rfl⟩ := connect_ok.1 hconnect
    have hgrows := Network.connect_grows hnet
    have hholds := hgrows.holds (Network.holds_iff.2 ⟨_, hcont₃.object hobject, rfl⟩)
    have hs₄ := (hs₃.on (hs₃.reachable.connect hnet) hgrows).write (Graph.lt_size hrec) hholds hsize
    have ho₄ := (closed_written hg hn hb hrec hk ho hw (onTarget_keeps hc) hv
      (onTarget_keeps hconnect)).owned ho
    obtain ⟨hs', hcont'⟩ := ih (fun m hm => hns m (List.mem_cons_of_mem _ hm)) ho₄ hs₄
    exact ⟨hs', (hcont₁.trans ((hcont₂.trans hcont₃).connect hid hnet)).trans hcont'⟩

end Realize

namespace Realization

variable {g g' : Graph α} {opens : List Node} {defaults : Defaults α}
  {r r' : Realization α (Network α)}

/-- A realization between complete runs. -/
structure Settled (g : Graph α) (r : Realization α (Network α)) : Prop extends r.Sized g where
  written : ∃ (first : Network α) (bound : Nat) (ws : List Write),
    Logged g bound (.start first) r ws ∧ Complete g ws

namespace Settled

theorem intact (h : r.Settled g) : r.Intact g := h.written

theorem start {net : Network α} (hr : net.Reachable) : (start net).Settled g where
  reachable := hr
  known _ _ hb := nomatch hb
  written := Intact.start net

theorem healthy (h : r.Settled g) : r.poisoned = false := h.intact.healthy

theorem owned (h : r.Settled g) (bound : Nat) : r.Owned g bound := h.intact.owned bound

/-- The nodes that a known node leads to are known. -/
theorem reached (h : r.Settled g) {allowed : Element α → Prop} (hg : g.Regular allowed opens)
    {n m : Node} (hn : ∃ k, r.built n = some k) (hm : g.Reached [n] m) : ∃ k, r.built m = some k := by
  obtain ⟨_, _, _, hl, -⟩ := h.written
  exact hl.reached_built hg (fun m hm => List.mem_singleton.1 hm ▸ hn) hm

theorem traced (h : r.Settled g) (hg : g.Regular Element.IsBuiltin opens) {n : Node}
    {es : List Event} {k : Handle} (ht : Traced Target.network g defaults [n] r es [k] r') :
    r'.Settled g ∧ r'.built n = some k := by
  have hns : ∀ m ∈ [n], m.index < n.index + 1 :=
    List.forall_mem_singleton.2 (Nat.lt_succ_self n.index)
  obtain ⟨hs, -⟩ := ht.sized hg hns (h.owned _) h.toSized
  obtain ⟨ws, hw⟩ := ht.written hg hns (h.owned _)
  exact ⟨⟨hs, h.intact.written hw⟩, hw.answer⟩

/-- Calls on the network leave the objects of known nodes in place. -/
theorem call (h : r.Settled g) (c : Call α) :
    ({ r with target := ((c.perform Target.network).run r.target).2 } :
      Realization α (Network α)).Settled g := by
  obtain ⟨first, b, ws, hl, hc⟩ := h.written
  obtain ⟨hr, hg⟩ := Network.perform_step c h.reachable
  exact ⟨h.toSized.on hr hg, first, b, ws, ⟨hl.memo, hl.poisoned, hl.nodup, hl.fresh, hl.entries⟩, hc⟩

theorem grow (h : r.Settled g) {allowed : Element α → Prop} (hg' : g'.Regular allowed opens)
    (he : g.Extends g') : r.Settled g' where
  reachable := h.reachable
  known n k hb := by
    obtain ⟨hn, hh, hs⟩ := h.known n k hb
    exact ⟨Nat.lt_of_lt_of_le hn he.size, hh, hs.trans (he.sizeOf hn).symm⟩
  written := h.intact.grow hg' he

end Settled

end Realization

/-- Realizations of constructed graphs on networks: a network that calls have led to, nodes that are
asked for with success, more calls on the network, and more nodes in the graph. -/
inductive Session (defaults : Defaults α) : Graph α → Realization α (Network α) → Prop
  | start {g : Graph α} {opens : List Node} {net : Network α} :
    g.Grown Element.IsBuiltin opens → net.Reachable → Session defaults g (.start net)
  | make {g : Graph α} {r r' : Realization α (Network α)} {n : Node} {h : Handle} :
    Session defaults g r → (make Target.network g defaults n).run r = (.ok h, r') →
      Session defaults g r'
  | call {g : Graph α} {r : Realization α (Network α)} (c : Call α) :
    Session defaults g r →
      Session defaults g { r with target := ((c.perform Target.network).run r.target).2 }
  | grow {g g' : Graph α} {opens : List Node} {r : Realization α (Network α)} :
    Session defaults g r → g'.Grown Element.IsBuiltin opens → g.Extends g' → Session defaults g' r

theorem Session.settled {defaults : Defaults α} {g : Graph α} {r : Realization α (Network α)}
    (h : Session defaults g r) : r.Settled g ∧ ∃ opens, g.Regular Element.IsBuiltin opens := by
  induction h with
  | start hg hr => exact ⟨.start hr, _, hg.regular⟩
  | make _ hm ih =>
    obtain ⟨hs, opens, hg⟩ := ih
    obtain ⟨es, ht⟩ := traced_of_place (make_ok.1 hm).2
    exact ⟨(hs.traced hg ht).1, opens, hg⟩
  | call c _ ih => exact ⟨ih.1.call c, ih.2⟩
  | grow _ hg he ih =>
    exact ⟨ih.1.grow hg.regular he, _, hg.regular⟩

end SignalGraph
