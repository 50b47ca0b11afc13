import Mathlib.Data.List.Perm.Lattice
import SignalGraph.Proofs.Axes

namespace SignalGraph

namespace Shape

theorem nodup_indices (s : Shape) : (indices s).Nodup := by
  rw [indices_eq]
  refine List.nodup_range.map_on fun p hp q hq h => ?_
  rw [← offset_unravel (List.mem_range.1 hp), h, offset_unravel (List.mem_range.1 hq)]

/-- The indices of a shape are those of the other axes with the places on this one put in. -/
theorem indices_insertIdx {s : Shape} {k : Nat} (hk : k ≤ s.length) (n : Nat) :
    (indices (s.insertIdx k n)).Perm
      ((indices s).flatMap fun j => (List.range n).map (j.insertIdx k ·)) := by
  refine (List.perm_ext_iff_of_nodup (nodup_indices _) (List.nodup_flatMap.2 ⟨?_, ?_⟩)).2 ?_
  · intro j hj
    refine List.nodup_range.map_on fun p _ q _ h => ?_
    have hle : k ≤ j.length := (within_length (mem_indices.1 hj)).symm ▸ hk
    rw [← getD_insertIdx (s := j) hle p, h, getD_insertIdx hle]
  · refine (nodup_indices s).imp fun {j j'} hne i hi hi' => hne ?_
    obtain ⟨q, -, rfl⟩ := List.mem_map.1 hi
    obtain ⟨q', -, h⟩ := List.mem_map.1 hi'
    rw [← List.eraseIdx_insertIdx_self (l := j) q, ← h, List.eraseIdx_insertIdx_self]
  · intro i
    simp only [mem_indices, List.mem_flatMap, List.mem_map, List.mem_range]
    constructor
    · intro hi
      obtain ⟨j, q, rfl, hj, hq⟩ := exists_insertIdx hk hi
      exact ⟨j, hj, q, hq, rfl⟩
    · rintro ⟨j, hj, q, hq, rfl⟩
      exact within_insertIdx hj hk hq

/-- A shape without empty axes has an index. -/
theorem exists_within {s : Shape} (h : 0 ∉ s) : ∃ i, Within i s := by
  induction s with
  | nil => exact ⟨[], trivial⟩
  | cons n s ih =>
    obtain ⟨hn, hs⟩ := not_or.1 (mt List.mem_cons.2 h)
    obtain ⟨i, hi⟩ := ih hs
    exact ⟨0 :: i, Nat.pos_of_ne_zero (Ne.symm hn), hi⟩

end Shape

namespace NDArray

variable {β : Type} [Inhabited β] {a : NDArray β} {axis : Nat}

/-- The lanes one behind the other are the array in another order. -/
theorem toList_perm_lanes (haxis : axis < a.rank) :
    a.toList.Perm ((Shape.indices (a.shape.eraseIdx axis)).flatMap (a.lane axis)) := by
  have hperm := Shape.indices_insertIdx (Shape.le_length_eraseIdx haxis) (a.axisLength axis)
  rw [axisLength, Shape.insertIdx_axis haxis] at hperm
  rw [toList_eq_indices]
  refine (hperm.map a.entry).trans (.of_eq ?_)
  rw [List.map_flatMap]
  refine List.flatMap_congr fun j _ => ?_
  rw [List.map_map]
  rfl

omit [Inhabited β] in
/-- An array without empty axes holds something. -/
theorem toList_ne_nil (h : 0 ∉ a.shape) : a.toList ≠ [] := by
  obtain ⟨i, hi⟩ := Shape.exists_within h
  refine List.ne_nil_of_length_pos ?_
  rw [size_toList]
  exact Nat.zero_lt_of_lt (Shape.offset_lt hi)

omit [Inhabited β] in
theorem axisLength_ne_zero (h : 0 ∉ a.shape) (haxis : axis < a.rank) : a.axisLength axis ≠ 0 := by
  intro h0
  refine h (h0 ▸ ?_)
  rw [axisLength, List.getD_eq_getElem?_getD, List.getElem?_eq_getElem haxis]
  exact List.getElem_mem haxis

theorem length_lane (i : List Nat) : (a.lane axis i).length = a.axisLength axis := by
  rw [lane, List.length_map, List.length_range]

theorem lane_ne_nil (h : 0 ∉ a.shape) (haxis : axis < a.rank) (i : List Nat) :
    a.lane axis i ≠ [] := by
  intro hnil
  exact axisLength_ne_zero h haxis (by rw [← length_lane (a := a) i, hnil, List.length_nil])

/-- What lies in a lane lies in the array. -/
theorem lane_subset (haxis : axis < a.rank) {i : List Nat}
    (hi : Shape.Within i (a.shape.eraseIdx axis)) : a.lane axis i ⊆ a.toList :=
  fun _ hb => (toList_perm_lanes haxis).mem_iff.2
    (List.mem_flatMap.2 ⟨i, Shape.mem_indices.2 hi, hb⟩)

end NDArray

end SignalGraph
