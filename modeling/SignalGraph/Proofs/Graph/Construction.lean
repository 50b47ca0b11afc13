import SignalGraph.Proofs.Graph.Building
import SignalGraph.Proofs.Lowering.Kinds

namespace SignalGraph

variable {α : Type}

namespace Graph

/-- Graphs that construction leads to, from elements that are `allowed`. The list holds the open
placeholders, the innermost first; an integrand that was given up leaves its placeholder behind. -/
inductive Grown (allowed : Element α → Prop) : List Node → Graph α → Prop
  | empty : Grown allowed [] .empty
  | element {opens : List Node} {g g' : Graph α} {e : Element α} {inputs : List Node}
    {explicit : Params α} {n : Node} :
    Grown allowed opens g → allowed e →
    (Build.element e inputs explicit).run g = .ok (n, g') → Grown allowed opens g'
  | configure {opens : List Node} {g g' : Graph α} {n m : Node} {overlay : Params α} :
    Grown allowed opens g → (Build.configure n overlay).run g = .ok (m, g') → Grown allowed opens g'
  | placeholder {opens : List Node} {g g' : Graph α} {u s : Node} :
    Grown allowed opens g →
    (Build.add ⟨.state, [u], g.sizeOf u, .empty, .empty⟩).run g = .ok (s, g') →
    Grown allowed (s :: opens) g'
  | integrate {opens : List Node} {g g' : Graph α} {u s n : Node} {f : Option Node} :
    Grown allowed (s :: opens) g → g.inputsOf s = [u] → (∀ m ∈ f, g.sizeOf m = g.sizeOf u) →
    (Build.add ⟨.integrate s f, [u], g.sizeOf u, .empty, .empty⟩).run g = .ok (n, g') →
    Grown allowed opens g'
  | abandon {opens : List Node} {g : Graph α} {s : Node} :
    Grown allowed (s :: opens) g → Grown allowed opens g

/-- What a record of a regular graph is like. -/
inductive Record (allowed : Element α → Prop) (g : Graph α) : NodeRecord α → Prop
  | element {e : Element α} {inputs : List Node} {size : Nat} {explicit : Params α} :
    allowed e → size ≠ 0 → e.sizeOut (inputs.map g.sizeOf) = .ok size →
    Record allowed g ⟨.element e, inputs, size, .empty, explicit⟩
  | configure {n : Node} {overlay : Params α} :
    g.sizeOf n ≠ 0 → Record allowed g ⟨.element .configure, [n], g.sizeOf n, overlay, .empty⟩
  | state {u : Node} :
    g.sizeOf u ≠ 0 → Record allowed g ⟨.state, [u], g.sizeOf u, .empty, .empty⟩
  | integrate {s u : Node} {f : Option Node} :
    g.sizeOf u ≠ 0 → g.record? s = some ⟨.state, [u], g.sizeOf u, .empty, .empty⟩ →
    (∀ m ∈ f, g.sizeOf m = g.sizeOf u) →
    Record allowed g ⟨.integrate s f, [u], g.sizeOf u, .empty, .empty⟩

/-- An integrator at place `i` with the placeholder `s`. -/
def Owns (g : Graph α) (i : Nat) (s : Node) : Prop :=
  ∃ (rec : NodeRecord α) (f : Option Node), g.records[i]? = some rec ∧ rec.kind = .integrate s f

/-- Graphs whose sizes agree and in which no two integrators share a placeholder. -/
structure Regular (allowed : Element α → Prop) (opens : List Node) (g : Graph α) : Prop where
  record : ∀ (i : Nat) (rec : NodeRecord α), g.records[i]? = some rec → g.Record allowed rec
  owner : ∀ (i j : Nat) (s : Node), g.Owns i s → g.Owns j s → i = j
  nodup : opens.Nodup
  opens : ∀ s ∈ opens, (∃ p, g.record? s = some p ∧ p.kind = .state) ∧ ∀ i, ¬g.Owns i s

variable {allowed : Element α → Prop} {opens : List Node} {g g' : Graph α}

theorem Record.positive {rec : NodeRecord α} (h : g.Record allowed rec) : rec.size ≠ 0 := by
  cases h <;> assumption

theorem Regular.positive (h : g.Regular allowed opens) {n : Node} (hn : n.index < g.size) :
    g.sizeOf n ≠ 0 := by
  obtain ⟨rec, hr⟩ := record?_of_lt hn
  rw [sizeOf_record hr]
  exact (h.record _ _ hr).positive

/-- A graph with the nodes of another and maybe more. -/
structure Extends (g g' : Graph α) : Prop where
  size : g.size ≤ g'.size
  records : ∀ i < g.size, g'.records[i]? = g.records[i]?

theorem Extends.refl (g : Graph α) : g.Extends g := ⟨Nat.le_refl _, fun _ _ => rfl⟩

theorem Extends.trans {g'' : Graph α} (h : g.Extends g') (h' : g'.Extends g'') : g.Extends g'' where
  size := Nat.le_trans h.size h'.size
  records i hi := (h'.records i (Nat.lt_of_lt_of_le hi h.size)).trans (h.records i hi)

theorem Extends.sizeOf (h : g.Extends g') {n : Node} (hn : n.index < g.size) :
    g'.sizeOf n = g.sizeOf n := by
  rw [Graph.sizeOf, Graph.record?, h.records _ hn]
  rfl

theorem Extends.inputsOf (h : g.Extends g') {n : Node} (hn : n.index < g.size) :
    g'.inputsOf n = g.inputsOf n := by
  rw [Graph.inputsOf, Graph.record?, h.records _ hn]
  rfl

/-- Records stay where the graph only gets more of them. -/
theorem Extends.record? (h : g.Extends g') {n : Node} {rec : NodeRecord α}
    (hr : g.record? n = some rec) : g'.record? n = some rec :=
  (h.records _ (lt_size hr)).trans hr

/-- A graph with one more record. -/
structure Pushed (g : Graph α) (rec : NodeRecord α) (g' : Graph α) : Prop where
  edges : ∀ m ∈ rec.edges, m.index < g.size
  records : g'.records = g.records.push rec

namespace Pushed

variable {rec : NodeRecord α}

theorem getElem? (h : g.Pushed rec g') (i : Nat) :
    g'.records[i]? = if i = g.size then some rec else g.records[i]? := by
  rw [h.records, Array.getElem?_push]
  rfl

theorem extension (h : g.Pushed rec g') : g.Extends g' where
  size := by simp [size, h.records]
  records i hi := by rw [h.getElem?, if_neg (Nat.ne_of_lt hi)]

theorem record?_old (h : g.Pushed rec g') {n : Node} (hn : n.index < g.size) :
    g'.record? n = g.record? n :=
  h.extension.records _ hn

theorem record?_new (h : g.Pushed rec g') : g'.record? ⟨g.size⟩ = some rec := by
  rw [record?, h.getElem?, if_pos rfl]

/-- A record that leads to old nodes is what it was. -/
theorem keeps (h : g.Pushed rec g') {r : NodeRecord α} (hr : g.Record allowed r)
    (hedges : ∀ m ∈ r.edges, m.index < g.size) : g'.Record allowed r := by
  cases hr with
  | @element e inputs size explicit ha hne hs =>
    refine .element ha hne ?_
    rwa [List.map_congr_left fun m hm => h.extension.sizeOf (hedges m (List.mem_append_left _ hm))]
  | @configure n overlay hne =>
    have hn : n.index < g.size := hedges n (List.mem_append_left _ (List.mem_singleton_self n))
    rw [← h.extension.sizeOf hn] at hne ⊢
    exact .configure hne
  | @state u hne =>
    have hu : u.index < g.size := hedges u (List.mem_append_left _ (List.mem_singleton_self u))
    rw [← h.extension.sizeOf hu] at hne ⊢
    exact .state hne
  | @integrate s u f hne hs hf =>
    have hu : u.index < g.size := hedges u (List.mem_append_left _ (List.mem_singleton_self u))
    rw [← h.extension.sizeOf hu] at hne hs hf ⊢
    refine .integrate hne ((h.record?_old (lt_size hs)).trans hs) fun m hm => ?_
    rw [← hf m hm]
    refine h.extension.sizeOf (hedges m (List.mem_append_right _ ?_))
    exact List.mem_cons_of_mem _ (Option.mem_toList.2 hm)

theorem owns (h : g.Pushed rec g') {i : Nat} {s : Node} (ho : g'.Owns i s) :
    (i = g.size ∧ ∃ f, rec.kind = .integrate s f) ∨ g.Owns i s := by
  obtain ⟨r, f, hr, hk⟩ := ho
  rw [h.getElem?] at hr
  split at hr
  · rename_i hi
    cases hr
    exact .inl ⟨hi, f, hk⟩
  · exact .inr ⟨r, f, hr, hk⟩

end Pushed

theorem pushed_of_add {rec : NodeRecord α} {n : Node} (h : (Build.add rec).run g = .ok (n, g')) :
    n = ⟨g.size⟩ ∧ g.Pushed rec g' := by
  obtain ⟨hedges, rfl, hrecords⟩ := Build.add_ok.1 h
  exact ⟨rfl, hedges, hrecords⟩

theorem pushed_of_element {e : Element α} {inputs : List Node} {explicit : Params α} {n : Node}
    (h : (Build.element e inputs explicit).run g = .ok (n, g')) :
    ∃ size, e.sizeOut (inputs.map g.sizeOf) = .ok size ∧ n = ⟨g.size⟩ ∧
      g.Pushed ⟨.element e, inputs, size, .empty, explicit⟩ g' := by
  obtain ⟨size, hsize, -, hin, rfl, hg⟩ := Build.element_ok.1 h
  refine ⟨size, hsize, rfl, ?_, hg⟩
  simpa [NodeRecord.edges, NodeKind.nodes] using hin

/-- An element that takes inputs of these sizes is put behind the other nodes. -/
theorem pushed_element {e : Element α} {inputs : List Node} {size : Nat} (explicit : Params α)
    (hsize : e.sizeOut (inputs.map g.sizeOf) = .ok size) (hne : size ≠ 0)
    (hin : ∀ m ∈ inputs, m.index < g.size) :
    ∃ g', (Build.element e inputs explicit).run g = .ok (⟨g.size⟩, g') ∧
      g.Pushed ⟨.element e, inputs, size, .empty, explicit⟩ g' := by
  have hedges : ∀ m ∈ (⟨.element e, inputs, size, .empty, explicit⟩ : NodeRecord α).edges,
      m.index < g.size := by
    simpa [NodeRecord.edges, NodeKind.nodes] using hin
  exact ⟨g.push _ hedges, Build.element_ok.2 ⟨size, hsize, hne, hin, rfl, rfl⟩, hedges, rfl⟩

/-- A placeholder lies before its integrator. -/
theorem Owns.lt {i : Nat} {s : Node} (h : g.Owns i s) : s.index < i ∧ i < g.size := by
  obtain ⟨rec, f, hr, hk⟩ := h
  refine ⟨edge_lt (n := ⟨i⟩) hr (List.mem_append_right _ ?_), lt_size (n := ⟨i⟩) hr⟩
  rw [hk]
  exact List.mem_cons_self

namespace Regular

variable {rec : NodeRecord α}

/-- What one more record keeps, `opens'` being the placeholders that are open with it. -/
theorem push {opens' : List Node} (h : g.Regular allowed opens) (hp : g.Pushed rec g')
    (hrec : g.Record allowed rec) (hnew : ∀ s f i, rec.kind = .integrate s f → ¬g.Owns i s)
    (hnodup : opens'.Nodup) (hopens : ∀ s ∈ opens',
      (∃ p, g'.record? s = some p ∧ p.kind = .state) ∧ (∀ i, ¬g.Owns i s) ∧
        ∀ f, rec.kind ≠ .integrate s f) : g'.Regular allowed opens' where
  record i r hr := by
    rw [hp.getElem?] at hr
    split at hr
    · cases hr
      exact hp.keeps hrec hp.edges
    · refine hp.keeps (h.record i r hr) fun m hm => ?_
      exact Nat.lt_trans (edge_lt (n := ⟨i⟩) hr hm) (lt_size (n := ⟨i⟩) hr)
  owner i j s hi hj := by
    rcases hp.owns hi with ⟨rfl, f, hf⟩ | hi
    · rcases hp.owns hj with ⟨rfl, -⟩ | hj
      · rfl
      · exact absurd hj (hnew s f j hf)
    · rcases hp.owns hj with ⟨rfl, f, hf⟩ | hj
      · exact absurd hi (hnew s f i hf)
      · exact h.owner i j s hi hj
  nodup := hnodup
  opens s hs := by
    obtain ⟨hstate, hold, hother⟩ := hopens s hs
    refine ⟨hstate, fun i ho => ?_⟩
    rcases hp.owns ho with ⟨-, f, hf⟩ | ho
    · exact hother f hf
    · exact hold i ho

/-- The open placeholders are still there with one more record. -/
theorem still_open (h : g.Regular allowed opens) (hp : g.Pushed rec g') {s : Node}
    (hs : s ∈ opens) : ∃ p, g'.record? s = some p ∧ p.kind = .state := by
  obtain ⟨⟨p, hr, hk⟩, -⟩ := h.opens s hs
  exact ⟨p, (hp.record?_old (lt_size hr)).trans hr, hk⟩

/-- A record of an element closes no placeholder. -/
theorem push_element (h : g.Regular allowed opens) (hp : g.Pushed rec g')
    (hrec : g.Record allowed rec) {e : Element α} (hk : rec.kind = .element e) :
    g'.Regular allowed opens := by
  refine h.push hp hrec (fun s f i hf => ?_) h.nodup fun s hs => ?_
  · rw [hk] at hf
    cases hf
  · refine ⟨h.still_open hp hs, (h.opens s hs).2, fun f hf => ?_⟩
    rw [hk] at hf
    cases hf

end Regular

theorem regular_empty : (empty : Graph α).Regular allowed [] where
  record i rec hr := by simp [empty] at hr
  owner i j s hi := absurd hi.lt.2 (Nat.not_lt_zero i)
  nodup := .nil
  opens s hs := absurd hs List.not_mem_nil

/-- The record of an open placeholder. -/
theorem Regular.record_open (h : g.Regular allowed opens) {s u : Node} (hs : s ∈ opens)
    (hu : g.inputsOf s = [u]) :
    g.record? s = some ⟨.state, [u], g.sizeOf u, .empty, .empty⟩ ∧ g.sizeOf u ≠ 0 := by
  obtain ⟨⟨p, hr, hk⟩, -⟩ := h.opens s hs
  have hp := h.record _ _ hr
  cases hp with
  | @state v hne =>
    rw [inputsOf, hr] at hu
    cases hu
    exact ⟨hr, hne⟩
  | _ => cases hk

theorem Grown.regular (h : g.Grown allowed opens) : g.Regular allowed opens := by
  induction h with
  | empty => exact regular_empty
  | element _ ha hb ih =>
    obtain ⟨size, hsize, hne, hin, rfl, hg⟩ := Build.element_ok.1 hb
    refine ih.push_element ⟨?_, hg⟩ (.element ha hne hsize) rfl
    simpa [NodeRecord.edges, NodeKind.nodes] using hin
  | configure _ hb ih =>
    simp only [Build.configure, Build.bind_ok, Build.sizeOf_ok] at hb
    obtain ⟨_, _, ⟨rfl, rfl⟩, hb⟩ := hb
    obtain ⟨-, hp⟩ := pushed_of_add hb
    exact ih.push_element hp (.configure (ih.positive (hp.edges _ List.mem_cons_self))) rfl
  | @placeholder opens g g' u s _ hb ih =>
    obtain ⟨rfl, hp⟩ := pushed_of_add hb
    have hfresh : ∀ i, ¬g.Owns i ⟨g.size⟩ := fun i ho =>
      Nat.lt_irrefl _ (Nat.lt_trans ho.lt.1 ho.lt.2)
    refine ih.push hp (.state (ih.positive (hp.edges u List.mem_cons_self))) ?_ ?_ fun s hs => ?_
    · rintro _ _ _ ⟨⟩
    · refine List.nodup_cons.2 ⟨fun hm => ?_, ih.nodup⟩
      obtain ⟨⟨p, hr, -⟩, -⟩ := ih.opens _ hm
      exact Nat.lt_irrefl _ (lt_size hr)
    · rcases List.mem_cons.1 hs with rfl | hs
      · refine ⟨⟨_, hp.record?_new, rfl⟩, hfresh, ?_⟩
        rintro _ ⟨⟩
      · refine ⟨ih.still_open hp hs, (ih.opens s hs).2, ?_⟩
        rintro _ ⟨⟩
  | @integrate opens g g' u s n f _ hu hf hb ih =>
    obtain ⟨-, hp⟩ := pushed_of_add hb
    obtain ⟨hs, hne⟩ := ih.record_open List.mem_cons_self hu
    obtain ⟨hnot, hnodup⟩ := List.nodup_cons.1 ih.nodup
    refine ih.push hp (.integrate hne hs hf) ?_ hnodup fun m hm => ?_
    · rintro _ _ i ⟨⟩
      exact (ih.opens s List.mem_cons_self).2 i
    · refine ⟨ih.still_open hp (List.mem_cons_of_mem _ hm),
        (ih.opens m (List.mem_cons_of_mem _ hm)).2, ?_⟩
      rintro _ ⟨⟩
      exact hnot hm
  | abandon _ ih =>
    exact ⟨ih.record, ih.owner, (List.nodup_cons.1 ih.nodup).2,
      fun s hs => ih.opens s (List.mem_cons_of_mem _ hs)⟩

end Graph

namespace Build

open SignalGraph.Graph

variable {β γ : Type} {allowed : Element α → Prop}

/-- A construction that adds nodes in the ways of `Grown` only and leaves the placeholders that are
open as they are. -/
def Keeps (allowed : Element α → Prop) (x : Build α β) : Prop :=
  ∀ (opens : List Node) (g g' : Graph α) (b : β), g.Grown allowed opens →
    x.run g = .ok (b, g') → g'.Grown allowed opens ∧ g.Extends g'

/-- The graph that a construction makes from nothing; a failed one makes none. -/
def graph (x : Build α β) : Graph α := (x.run .empty).toOption.elim .empty Prod.snd

theorem Keeps.grown {x : Build α β} (hx : Keeps allowed x) : x.graph.Grown allowed [] := by
  rw [graph]
  rcases h : x.run .empty with e | ⟨b, g⟩
  · exact .empty
  · exact (hx [] _ _ b .empty h).1

theorem keeps_pure (b : β) : Keeps allowed (pure b : Build α β) := by
  intro opens g g' b' hg hb
  obtain ⟨-, rfl⟩ := pure_ok.1 hb
  exact ⟨hg, .refl g⟩

theorem keeps_throw (e : GraphError) : Keeps allowed (throw e : Build α β) :=
  fun _ _ _ _ _ hb => absurd hb throw_ok

theorem keeps_ofGraph (x : Except GraphError β) : Keeps allowed (ofGraph x : Build α β) := by
  intro opens g g' b hg hb
  obtain ⟨-, rfl⟩ := ofGraph_ok.1 hb
  exact ⟨hg, .refl g⟩

theorem keeps_sizeOf (n : Node) : Keeps allowed (sizeOf n : Build α Nat) := by
  intro opens g g' b hg hb
  obtain ⟨-, rfl⟩ := sizeOf_ok.1 hb
  exact ⟨hg, .refl g⟩

theorem Keeps.bind {x : Build α β} {f : β → Build α γ} (hx : Keeps allowed x)
    (hf : ∀ b, Keeps allowed (f b)) : Keeps allowed (x >>= f) := by
  intro opens g g'' c hg hb
  obtain ⟨b, g', hb, hc⟩ := bind_ok.1 hb
  obtain ⟨hg', hext⟩ := hx _ _ _ _ hg hb
  obtain ⟨hg'', hext'⟩ := hf b _ _ _ _ hg' hc
  exact ⟨hg'', hext.trans hext'⟩

theorem Keeps.mapM {f : β → Build α γ} (hf : ∀ b, Keeps allowed (f b)) (xs : List β) :
    Keeps allowed (xs.mapM f) := by
  induction xs with
  | nil => exact keeps_pure _
  | cons x xs ih =>
    rw [List.mapM_cons]
    exact (hf x).bind fun _ => ih.bind fun _ => keeps_pure _

theorem keeps_element {e : Element α} (he : allowed e) (inputs : List Node) (explicit : Params α) :
    Keeps allowed (element e inputs explicit) := by
  intro opens g g' n hg hb
  obtain ⟨_, -, -, hin, -, hrecords⟩ := element_ok.1 hb
  refine ⟨.element hg he hb, Pushed.extension ⟨?_, hrecords⟩⟩
  simpa [NodeRecord.edges, NodeKind.nodes] using hin

theorem keeps_configure (n : Node) (overlay : Params α) : Keeps allowed (configure n overlay) := by
  intro opens g g' m hg hb
  refine ⟨.configure hg hb, ?_⟩
  simp only [configure, bind_ok, sizeOf_ok] at hb
  obtain ⟨_, _, ⟨rfl, rfl⟩, hb⟩ := hb
  exact (pushed_of_add hb).2.extension

theorem builder_build (x : Build α β) : (Builder.build x : Build α β) = x := rfl

/-- The placeholder is opened before the integrand is built and closed behind it. -/
theorem keeps_integrate (u : Node) {integrand : Option (Node → Build α Node)}
    (hf : ∀ f ∈ integrand, ∀ s, Keeps allowed (f s)) : Keeps allowed (integrate u integrand) := by
  intro opens g g' n hg hb
  simp only [integrate] at hb
  obtain ⟨size, _, hsize, hb⟩ := bind_ok.1 hb
  obtain ⟨rfl, rfl⟩ := sizeOf_ok.1 hsize
  obtain ⟨s, g₁, hs, hb⟩ := bind_ok.1 hb
  have hopen := Grown.placeholder hg hs
  obtain ⟨rfl, hp⟩ := pushed_of_add hs
  have hu : u.index < g.size := hp.edges u List.mem_cons_self
  have hsize := hp.extension.sizeOf hu
  have hinputs : g₁.inputsOf ⟨g.size⟩ = [u] := by
    rw [inputsOf, hp.record?_new]
    rfl
  cases integrand with
  | none =>
    rw [← hsize] at hb
    exact ⟨.integrate hopen hinputs (fun m hm => by cases hm) hb,
      hp.extension.trans (pushed_of_add hb).2.extension⟩
  | some f =>
    obtain ⟨rate, g₂, hrate, hb⟩ := bind_ok.1 hb
    obtain ⟨hopen', hext⟩ := hf f rfl _ _ _ _ _ hopen hrate
    rw [builder_build] at hb
    obtain ⟨actual, _, hactual, hb⟩ := bind_ok.1 hb
    obtain ⟨rfl, rfl⟩ := sizeOf_ok.1 hactual
    have hlt : (⟨g.size⟩ : Node).index < g₁.size := lt_size hp.record?_new
    have hsize' : g₂.sizeOf u = g.sizeOf u :=
      (hext.sizeOf (Nat.lt_of_lt_of_le hu hp.extension.size)).trans hsize
    split at hb
    · obtain ⟨_, _, hx, -⟩ := bind_ok.1 hb
      exact absurd hx throw_ok
    · rename_i hne
      rw [← hsize'] at hb hne
      refine ⟨.integrate hopen' ((hext.inputsOf hlt).trans hinputs) ?_ hb,
        (hp.extension.trans hext).trans (pushed_of_add hb).2.extension⟩
      rintro m ⟨⟩
      exact not_not.1 hne

variable [Scalar α] (hall : ∀ k : BuiltinKind α, allowed k.element)

include hall

theorem keeps_stimulus (signal : Signal α) : Keeps allowed (stimulus signal) :=
  keeps_element (hall (.stimulus signal)) _ _

theorem keeps_linear (inputs : List Node) (matrices : List (Matrix α)) :
    Keeps allowed (linear inputs matrices) :=
  keeps_element (hall (.transform matrices)) _ _

theorem keeps_affine (op : String) (terms : List (Node × α)) (c : α) :
    Keeps allowed (affine op terms c) := by
  rw [affine]
  refine Keeps.bind (.mapM (fun t => ?_) terms) fun sized => ?_
  · exact (keeps_sizeOf t.1).bind fun _ => keeps_pure _
  dsimp only
  split
  · exact keeps_throw _
  · split
    · exact keeps_linear hall _ _
    · refine Keeps.bind (keeps_stimulus hall _) fun m => ?_
      exact keeps_linear hall _ _

theorem keeps_decode (n : Node) (function : VectorFunction α) (size : Option Nat)
    (explicit : Params α) : Keeps allowed (decode n function size explicit) := by
  cases size with
  | some size => exact keeps_element (hall (.decode function size)) _ _
  | none =>
    refine (keeps_sizeOf n).bind fun size => ?_
    dsimp only
    split
    · exact (keeps_throw _).bind fun _ => keeps_element (hall (.decode function size)) _ _
    · exact keeps_element (hall (.decode function size)) _ _

theorem keeps_slice (n : Node) (indices : List Nat) : Keeps allowed (slice n indices) :=
  keeps_element (hall (.slice indices)) _ _

theorem keeps_bundle (nodes : List Node) : Keeps allowed (bundle (α := α) nodes) :=
  keeps_element (hall .bundle) _ _

theorem keeps_product (a b : Node) : Keeps allowed (product (α := α) a b) := by
  refine (keeps_sizeOf a).bind fun sizeA => (keeps_sizeOf b).bind fun sizeB => ?_
  have hrest : Keeps allowed (do
      let joined ← bundle [a, b]
      decode joined (splitProduct sizeA (max sizeA sizeB)) (some (max sizeA sizeB)) .empty :
        Build α Node) :=
    (keeps_bundle hall _).bind fun _ => keeps_decode hall _ _ _ _
  dsimp only
  split
  · exact (keeps_throw _).bind fun _ => hrest
  · exact hrest

theorem keeps_filter (n : Node) (tau : Option α) : Keeps allowed (filter n tau) := by
  cases tau with
  | none => exact keeps_element (hall .filter) _ _
  | some tau =>
    simp only [filter]
    split
    · exact (keeps_throw _).bind fun _ => keeps_element (hall .filter) _ _
    · exact keeps_element (hall .filter) _ _

end Build

end SignalGraph
