import Mathlib.Data.List.GetD
import SignalGraph.Proofs.Realize.Components

namespace SignalGraph

open Realize

variable {α : Type} {g g' : Graph α} {ns ms ks : List Node} {n : Node}

namespace Graph

/-- Two sizes that nodes have and that do not go together: they differ, and neither is one value. -/
structure Clash (g : Graph α) (ns : List Node) (a b : Nat) : Prop where
  left : a ∈ ns.map g.sizeOf
  right : b ∈ ns.map g.sizeOf
  left_many : 1 < a
  right_many : 1 < b
  ne : a ≠ b

/-- Some of the nodes' sizes do not go together. -/
def Mixes (g : Graph α) (ns : List Node) : Prop := ∃ a b, g.Clash ns a b

theorem Clash.mono {a b : Nat} (h : g.Clash ns a b)
    (hsizes : ∀ c, 1 < c → c ∈ ns.map g.sizeOf → c ∈ ms.map g'.sizeOf) : g'.Clash ms a b :=
  ⟨hsizes a h.left_many h.left, hsizes b h.right_many h.right, h.left_many, h.right_many, h.ne⟩

theorem Mixes.mono (h : g.Mixes ns)
    (hsizes : ∀ c, 1 < c → c ∈ ns.map g.sizeOf → c ∈ ms.map g'.sizeOf) : g'.Mixes ms := by
  obtain ⟨a, b, h⟩ := h
  exact ⟨a, b, h.mono hsizes⟩

theorem Mixes.subset (h : g.Mixes ns) (hns : ns ⊆ ms) : g.Mixes ms :=
  h.mono fun _ _ hc => List.map_subset _ hns hc

theorem Mixes.ne_nil (h : g.Mixes ns) : ns ≠ [] := by
  rintro rfl
  obtain ⟨a, b, h⟩ := h
  exact List.not_mem_nil h.left

theorem Extends.width (he : g.Extends g') (hns : ∀ n ∈ ns, n.index < g.size) :
    g'.width ns = g.width ns := by
  rw [Graph.width, he.sizes hns, Graph.width]

theorem Extends.mixes (he : g.Extends g') (hns : ∀ n ∈ ns, n.index < g.size) :
    g'.Mixes ns ↔ g.Mixes ns := by
  constructor
  · exact fun h => h.mono fun c _ hc => he.sizes hns ▸ hc
  · exact fun h => h.mono fun c _ hc => (he.sizes hns).symm ▸ hc

/-- Nodes that are not mixed have the size of their sum, or one value. -/
theorem fits_iff (hpos : ∀ n ∈ ns, g.sizeOf n ≠ 0) :
    ¬g.Mixes ns ↔ ∀ n ∈ ns, g.sizeOf n = g.width ns ∨ g.sizeOf n = 1 := by
  constructor
  · intro h n hn
    obtain ⟨m, hm, hsize⟩ := width_mem (g := g) (List.ne_nil_of_mem hn)
    by_contra hnot
    obtain ⟨hother, hone⟩ := not_or.1 hnot
    have hpos := hpos n hn
    have hle := le_width (g := g) hn
    exact h ⟨_, _, List.mem_map_of_mem hm, List.mem_map_of_mem hn, by omega, by omega, by omega⟩
  · rintro h ⟨a, b, hleft, hright, hone, hone', hne⟩
    obtain ⟨m, hm, rfl⟩ := List.mem_map.1 hleft
    obtain ⟨n, hn, rfl⟩ := List.mem_map.1 hright
    have hm := h m hm
    have hn := h n hn
    omega

theorem width_le (hns : ns ≠ []) (hms : ms ≠ []) (hpos : ∀ m ∈ ms, g'.sizeOf m ≠ 0)
    (hsizes : ∀ c, 1 < c → c ∈ ns.map g.sizeOf → c ∈ ms.map g'.sizeOf) :
    g.width ns ≤ g'.width ms := by
  obtain ⟨n, hn, hsize⟩ := width_mem (g := g) hns
  obtain ⟨m, hm⟩ := List.exists_mem_of_ne_nil ms hms
  have hone := hpos m hm
  have hle := le_width (g := g') hm
  by_cases hmany : 1 < g.sizeOf n
  · obtain ⟨k, hk, hsame⟩ := List.mem_map.1 (hsizes _ hmany (List.mem_map_of_mem hn))
    rw [← hsize, ← hsame]
    exact le_width hk
  · omega

variable [Scalar α]

/-- A linear node over exactly the given nodes, whose components are totals of theirs. -/
structure Reduces (g : Graph α) (ns : List Node) (total : List α → α) (n : Node) : Prop where
  record : ∃ ms, g.record? n =
    some ⟨.element (.transform ms), ns, g.width ns, .empty, .empty⟩
  value : g.Evaluates (∃ hs ms, · = .linear hs ms) n ns fun xs =>
    (List.range (g.width ns)).map fun i => total (xs.map (componentAt · i))

namespace Reduces

variable {total : List α → α}

theorem placed (h : g.Reduces ns total n) : n.index < g.size := by
  obtain ⟨ms, hr⟩ := h.record
  exact lt_size hr

theorem size (h : g.Reduces ns total n) : g.sizeOf n = g.width ns := by
  obtain ⟨ms, hr⟩ := h.record
  exact sizeOf_record hr

theorem inputs (h : g.Reduces ns total n) : ∀ m ∈ ns, m.index < g.size := by
  obtain ⟨ms, hr⟩ := h.record
  exact fun m hm => Nat.lt_trans (inputs_lt hr m hm) (lt_size hr)

theorem later (h : g.Reduces ns total n) (he : g.Extends g') : g'.Reduces ns total n := by
  obtain ⟨ms, hr⟩ := h.record
  have hwidth := he.width h.inputs
  refine ⟨⟨ms, hwidth.symm ▸ he.record? hr⟩, ?_⟩
  rw [hwidth]
  exact h.value.mono he h.placed h.inputs

end Reduces

end Graph

/-- The value of a node in those of the objects. -/
def Realization.value (r : Realization α (Network α)) (v : Values α) (n : Node) : List α :=
  ((r.built n).map fun h => v.of h.id).getD []

theorem Realization.value_built {r : Realization α (Network α)} {h : Handle}
    (hb : r.built n = some h) (v : Values α) : r.value v n = v.of h.id := by
  rw [value, hb]
  rfl

section Components

variable [Scalar α]

/-- A vector of one value has it at every component. -/
theorem componentAt_unit {x : List α} (h : x.length ≤ 1) (i : Nat) :
    componentAt x i = componentAt x 0 := by
  unfold componentAt
  split
  · rfl
  · obtain rfl : x = [] := List.length_eq_zero_iff.1 (by omega)
    rfl

theorem componentAt_range {size i : Nat} (f : Nat → α) (hi : i < size) :
    componentAt ((List.range size).map f) i = f i := by
  unfold componentAt
  rw [List.length_map, List.length_range]
  split
  · obtain rfl : i = 0 := by omega
    rw [List.getD_eq_getElem _ _ (by simpa using hi), List.getElem_map, List.getElem_range]
  · rw [List.getD_eq_getElem _ _ (by simpa using hi), List.getElem_map, List.getElem_range]

end Components

namespace Graph

variable [Scalar α] {size : Nat}

/-- Where a sum is realized, so is what it is over, and its value is the total of theirs. -/
theorem Reduces.realized {total : List α → α} {defaults : Defaults α}
    {r : Realization α (Network α)} (h : g.Reduces ns total n) (he : g.Extends g')
    (hu : Usage defaults g' r) (hn : (r.built n).isSome) :
    (∀ m ∈ ns, (r.built m).isSome) ∧ ∀ v, r.target.Observed v →
      (∀ m ∈ ns, (r.value v m).length = g.sizeOf m) ∧
      r.value v n = (List.range (g.width ns)).map fun i =>
        total (ns.map fun m => componentAt (r.value v m) i) := by
  obtain ⟨k, hk⟩ := Option.isSome_iff_exists.1 hn
  obtain ⟨_, hs, -, ⟨_, _, rfl⟩, hall, hvalue⟩ := h.value defaults g' r k he hu hk
  refine ⟨fun m hm => ?_, fun v hv => ?_⟩
  · obtain ⟨w, hw⟩ := forall₂_mem_left hall hm
    rw [hw]
    rfl
  · obtain ⟨hlengths, hout⟩ := hvalue trivial v hv
    have hread : ns.map (r.value v) = hs.map fun k => v.of k.id :=
      forall₂_map_eq (hall.imp fun m k hk => Realization.value_built hk v)
    have hsizes : ns.map (fun m => (r.value v m).length) = ns.map g.sizeOf := by
      rw [← hlengths]
      exact forall₂_map_eq (hall.imp fun m k hk => by rw [Realization.value_built hk v])
    refine ⟨List.map_inj_left.1 hsizes, ?_⟩
    rw [Realization.value_built hk, hout, ← hread]
    simp only [List.map_map]
    rfl

/-- The nodes `ns` have the total of the nodes `ms`: where they are realized, so are those, and if
those have values of their sizes, so have they, which add up to the same at each component. -/
def Totals (g : Graph α) (size : Nat) (ns ms : List Node) : Prop :=
  ∀ (defaults : Defaults α) (g' : Graph α) (r : Realization α (Network α)),
    g.Extends g' → Usage defaults g' r → (∀ n ∈ ns, (r.built n).isSome) →
      (∀ m ∈ ms, (r.built m).isSome) ∧ ∀ v, r.target.Observed v →
        (∀ m ∈ ms, (r.value v m).length = g.sizeOf m) →
          (∀ n ∈ ns, (r.value v n).length = g.sizeOf n) ∧
          ∀ i < size, Scalar.sum (ns.map fun n => componentAt (r.value v n) i) =
            Scalar.sum (ms.map fun m => componentAt (r.value v m) i)

namespace Totals

theorem refl (g : Graph α) (size : Nat) (ns : List Node) : g.Totals size ns ns :=
  fun _ _ _ _ _ hns => ⟨hns, fun _ _ hlengths => ⟨hlengths, fun _ _ => rfl⟩⟩

theorem trans (h : g.Totals size ns ms) (h' : g.Totals size ms ks) : g.Totals size ns ks := by
  intro defaults g' r he hu hns
  obtain ⟨hms, hvalues⟩ := h defaults g' r he hu hns
  obtain ⟨hks, hvalues'⟩ := h' defaults g' r he hu hms
  refine ⟨hks, fun v hv hlengths => ?_⟩
  obtain ⟨hlengths, hsums'⟩ := hvalues' v hv hlengths
  obtain ⟨hlengths, hsums⟩ := hvalues v hv hlengths
  exact ⟨hlengths, fun i hi => (hsums i hi).trans (hsums' i hi)⟩

theorem later (h : g.Totals size ns ms) (he : g.Extends g') (hns : ∀ n ∈ ns, n.index < g.size)
    (hms : ∀ m ∈ ms, m.index < g.size) : g'.Totals size ns ms := by
  intro defaults g'' r he' hu hbuilt
  obtain ⟨hmbuilt, hvalues⟩ := h defaults g'' r (he.trans he') hu hbuilt
  refine ⟨hmbuilt, fun v hv hlengths => ?_⟩
  obtain ⟨hlengths, hsums⟩ := hvalues v hv fun m hm => by rw [hlengths m hm, he.sizeOf (hms m hm)]
  exact ⟨fun n hn => by rw [hlengths n hn, he.sizeOf (hns n hn)], hsums⟩

variable [Scalar.Exact α]

theorem append {ns' ms' : List Node} (h : g.Totals size ns ms) (h' : g.Totals size ns' ms') :
    g.Totals size (ns ++ ns') (ms ++ ms') := by
  intro defaults g' r he hu hbuilt
  obtain ⟨hbuilt, hbuilt'⟩ := List.forall_mem_append.1 hbuilt
  obtain ⟨hms, hvalues⟩ := h defaults g' r he hu hbuilt
  obtain ⟨hms', hvalues'⟩ := h' defaults g' r he hu hbuilt'
  refine ⟨List.forall_mem_append.2 ⟨hms, hms'⟩, fun v hv hlengths => ?_⟩
  obtain ⟨hlengths, hlengths'⟩ := List.forall_mem_append.1 hlengths
  obtain ⟨hlengths, hsums⟩ := hvalues v hv hlengths
  obtain ⟨hlengths', hsums'⟩ := hvalues' v hv hlengths'
  refine ⟨List.forall_mem_append.2 ⟨hlengths, hlengths'⟩, fun i hi => ?_⟩
  rw [List.map_append, List.map_append, Scalar.sum_append, Scalar.sum_append, hsums i hi, hsums' i hi]

theorem perm (h : g.Totals size ns ms) (hperm : ms.Perm ks) : g.Totals size ns ks := by
  intro defaults g' r he hu hns
  obtain ⟨hms, hvalues⟩ := h defaults g' r he hu hns
  refine ⟨fun k hk => hms k (hperm.mem_iff.2 hk), fun v hv hlengths => ?_⟩
  obtain ⟨hlengths, hsums⟩ := hvalues v hv fun m hm => hlengths m (hperm.mem_iff.1 hm)
  exact ⟨hlengths, fun i hi => (hsums i hi).trans (Scalar.sum_perm (hperm.map _))⟩

/-- Nodes that have the totals of lists have the total of the lists one behind the other. -/
theorem flatMap {β : Type} {xs : List β} {f : β → Node} {l : β → List Node}
    (h : ∀ x ∈ xs, g.Totals size [f x] (l x)) : g.Totals size (xs.map f) (xs.flatMap l) := by
  induction xs with
  | nil => exact refl g size []
  | cons x xs ih =>
    rw [List.flatMap_cons]
    exact (h x List.mem_cons_self).append (ih fun y hy => h y (List.mem_cons_of_mem _ hy))

/-- Sums have the total of what they are over. -/
theorem of_reduces (h : g.Reduces ns Scalar.sum n) (hwidth : g.width ns = size ∨ g.width ns = 1) :
    g.Totals size [n] ns := by
  intro defaults g' r he hu hn
  obtain ⟨hns, hvalues⟩ := h.realized he hu (hn n List.mem_cons_self)
  refine ⟨hns, fun v hv _ => ?_⟩
  obtain ⟨hlengths, hvalue⟩ := hvalues v hv
  refine ⟨List.forall_mem_singleton.2 ?_, fun i hi => ?_⟩
  · rw [hvalue, List.length_map, List.length_range, h.size]
  · rw [List.map_singleton, Scalar.sum_cons, Scalar.sum_nil, Scalar.Exact.add_zero, hvalue]
    rcases hwidth with hsize | hone
    · exact componentAt_range _ (hsize ▸ hi)
    · rw [componentAt_unit (by simp [hone]), componentAt_range _ (by omega)]
      refine congrArg Scalar.sum (List.map_congr_left fun m hm => ?_)
      refine (componentAt_unit ?_ i).symm
      rw [hlengths m hm]
      exact hone ▸ le_width hm

end Totals

/-- Wherever two nodes are realized, they have one value in each recorded step. -/
def SameValue (g : Graph α) (n n' : Node) : Prop :=
  g.sizeOf n = g.sizeOf n' ∧
    ∀ (defaults : Defaults α) (g' : Graph α) (r : Realization α (Network α)) (h h' : Handle),
      g.Extends g' → Usage defaults g' r → r.built n = some h → r.built n' = some h' →
        ∀ v, r.target.Observed v → v.of h.id = v.of h'.id

/-- A node that has the total of others has the value of their sum. -/
theorem Totals.sameValue [Scalar.Exact α] {n' : Node} (h : g.Totals (g.width ms) [n] ms)
    (hsize : g.sizeOf n = g.width ms) (h' : g.Reduces ms Scalar.sum n') : g.SameValue n n' := by
  refine ⟨hsize.trans h'.size.symm, fun defaults g' r k k' he hu hb hb' v hv => ?_⟩
  obtain ⟨hms, hvalues'⟩ := h'.realized he hu (hb' ▸ rfl)
  obtain ⟨hlengths, hvalue'⟩ := hvalues' v hv
  obtain ⟨-, hvalues⟩ := h defaults g' r he hu (List.forall_mem_singleton.2 (hb ▸ rfl))
  obtain ⟨hlength, hsums⟩ := hvalues v hv hlengths
  have hlength := hlength n List.mem_cons_self
  rw [← Realization.value_built hb, ← Realization.value_built hb', hvalue',
    ← map_componentAt (hlength.trans hsize)]
  refine List.map_congr_left fun i hi => ?_
  rw [← hsums i (List.mem_range.1 hi), List.map_singleton, Scalar.sum_cons, Scalar.sum_nil,
    Scalar.Exact.add_zero]

end Graph

end SignalGraph
