import Mathlib.Data.List.InsertIdx
import Mathlib.Data.List.Perm.Subperm
import SignalGraph.Proofs.Arrays

namespace SignalGraph

theorem modify_insertIdx {γ : Type} {l : List γ} {k : Nat} (hk : k ≤ l.length) (x : γ) (f : γ → γ) :
    (l.insertIdx k x).modify k f = l.insertIdx k (f x) := by
  induction k generalizing l with
  | zero => rfl
  | succ k ih =>
    cases l with
    | nil => cases hk
    | cons y l =>
      simp only [List.insertIdx_succ_cons, List.modify_succ_cons, ih (Nat.le_of_succ_le_succ hk)]

namespace Shape

theorem checkAxis_eq_ok {axis rank : Nat} {u : Unit} :
    checkAxis axis rank = .ok u ↔ axis < rank := by
  unfold checkAxis
  split <;> simp [*]

theorem within_insertIdx {i : List Nat} {s : Shape} (h : Within i s) {k q n : Nat}
    (hk : k ≤ s.length) (hq : q < n) : Within (i.insertIdx k q) (s.insertIdx k n) := by
  induction k generalizing i s with
  | zero => exact ⟨hq, h⟩
  | succ k ih =>
    cases s with
    | nil => cases hk
    | cons m s =>
      cases i with
      | nil => exact absurd h (by simp [Within])
      | cons j i => exact ⟨h.1, ih h.2 (Nat.le_of_succ_le_succ hk)⟩

/-- An index is one of the other axes with a place on this one put in. -/
theorem exists_insertIdx {i : List Nat} {s : Shape} {k n : Nat} (hk : k ≤ s.length)
    (h : Within i (s.insertIdx k n)) : ∃ j q, i = j.insertIdx k q ∧ Within j s ∧ q < n := by
  induction k generalizing i s with
  | zero =>
    cases i with
    | nil => exact absurd h (by simp [Within])
    | cons q j => exact ⟨j, q, rfl, h.2, h.1⟩
  | succ k ih =>
    cases s with
    | nil => cases hk
    | cons m s =>
      cases i with
      | nil => exact absurd h (by simp [Within])
      | cons p i =>
        obtain ⟨j, q, rfl, hj, hq⟩ := ih (Nat.le_of_succ_le_succ hk) h.2
        exact ⟨p :: j, q, rfl, ⟨h.1, hj⟩, hq⟩

theorem size_insertIdx {s : Shape} {k : Nat} (hk : k ≤ s.length) (n : Nat) :
    size (s.insertIdx k n) = size s * n := by
  induction k generalizing s with
  | zero => exact Nat.mul_comm n (size s)
  | succ k ih =>
    cases s with
    | nil => cases hk
    | cons m s =>
      rw [List.insertIdx_succ_cons, size, size, ih (Nat.le_of_succ_le_succ hk), Nat.mul_assoc]

theorem le_length_eraseIdx {s : Shape} {k : Nat} (hk : k < s.length) :
    k ≤ (s.eraseIdx k).length := by
  rw [List.length_eraseIdx_of_lt hk]
  exact Nat.le_sub_one_of_lt hk

/-- A shape is that of the other axes with this one put in. -/
theorem insertIdx_axis {s : Shape} {k : Nat} (hk : k < s.length) :
    (s.eraseIdx k).insertIdx k (s.getD k 0) = s := by
  rw [List.getD_eq_getElem?_getD, List.getElem?_eq_getElem hk, Option.getD_some]
  exact List.insertIdx_eraseIdx_getElem hk

/-- Another length on an axis. -/
theorem set_axis {s : Shape} {k : Nat} (hk : k < s.length) (n : Nat) :
    s.set k n = (s.eraseIdx k).insertIdx k n :=
  (List.insertIdx_eraseIdx_self (Nat.ne_of_lt hk) n).symm

theorem getD_insertIdx {s : Shape} {k : Nat} (hk : k ≤ s.length) (n : Nat) :
    (s.insertIdx k n).getD k 0 = n := by
  rw [List.getD_eq_getElem?_getD, List.getElem?_insertIdx_self, if_pos hk, Option.getD_some]

theorem filter_of_size {s : Shape} (h : size s ≠ 0) : s.filter (· != 0) = s := by
  induction s with
  | nil => rfl
  | cons n s ih =>
    obtain ⟨hn, hs⟩ := Nat.mul_ne_zero_iff.1 h
    have hpos : (n != 0) = true := bne_iff_ne.2 hn
    rw [List.filter_cons, if_pos hpos, ih hs]

theorem size_lt_of_addressable {s : Shape} (h : addressable s = true) : size s < Nat.pow 2 63 := by
  by_cases h0 : size s = 0
  · rw [h0]
    decide
  · rw [addressable, filter_of_size h0] at h
    exact of_decide_eq_true h

theorem wordSize_of_addressable {s : Shape} (h : addressable s = true) : wordSize s = size s :=
  Nat.mod_eq_of_lt (Nat.lt_trans (size_lt_of_addressable h) (by decide))

end Shape

namespace NDArray

variable {β : Type}

/-- Values are laid out in a shape that they fit, unless it has too many places. -/
theorem fill_eq_ok {s : Shape} {values : List β} {a : NDArray β} :
    fill s values = .ok a ↔ values.length = Shape.size s ∧ Shape.addressable s = true ∧
      a.shape = s ∧ a.toList = values := by
  constructor
  · intro h
    unfold fill at h
    split at h
    · cases h
    unfold store at h
    split at h
    · cases h
    rename_i haddress
    split at h
    · rename_i hl
      cases h
      exact ⟨hl, by simpa using haddress, rfl, rfl⟩
    · cases h
  · rintro ⟨hl, haddress, hs, hv⟩
    obtain ⟨b, hbs, hbv, hb⟩ := store_eq hl
    have hword : Shape.wordSize s = values.length := by
      rw [Shape.wordSize_of_addressable haddress, hl]
    rw [fill, if_neg (not_not.2 hword), hb, if_pos haddress]
    exact congrArg Except.ok (ext_toList (hbs.trans hs.symm) (hbv.trans hv.symm))

/-- Values that fit a shape with places but not too many. -/
theorem fill_ok {s : Shape} {values : List β} (hl : values.length = Shape.size s)
    (hne : Shape.size s ≠ 0) (hlt : Shape.size s < Nat.pow 2 63) :
    ∃ a, fill s values = .ok a ∧ a.shape = s ∧ a.toList = values := by
  have haddress : Shape.addressable s = true := by
    rw [Shape.addressable, Shape.filter_of_size hne]
    exact decide_eq_true hlt
  obtain ⟨a, hs, hv, -⟩ := store_eq hl
  exact ⟨a, fill_eq_ok.2 ⟨hl, haddress, hs, hv⟩, hs, hv⟩

theorem map_getD_range {γ : Type} (l : List γ) (d : γ) :
    (List.range l.length).map (fun a => l.getD a d) = l := by
  refine List.ext_getElem (by simp) fun i _ hi => ?_
  rw [List.getElem_map, List.getElem_range, List.getD_eq_getElem?_getD, List.getElem?_eq_getElem hi,
    Option.getD_some]

/-- What lies along the axes of an array, the last one being put in at place `k`. -/
theorem map_insertIdx_range {γ : Type} (l : List γ) (x d : γ) (k : Nat) :
    ((List.range l.length).insertIdx k l.length).map (fun a => (l ++ [x]).getD a d) =
      l.insertIdx k x := by
  have hall := map_getD_range (l ++ [x]) d
  rw [List.length_append, List.length_singleton, List.range_succ, List.map_append] at hall
  obtain ⟨hfront, hlast⟩ := List.append_inj' hall rfl
  rw [List.map_insertIdx, hfront]
  exact congrArg (l.insertIdx k) (List.head_eq_of_cons_eq hlast)

/-- The scan goes through where no axis is named twice and none has been seen before. -/
theorem allNew_iff {seen : Array Bool} {axes : List Nat} :
    allNew seen axes = true ↔ axes.Nodup ∧ ∀ t ∈ axes, seen[t]? = some false := by
  induction axes generalizing seen with
  | nil => simp [allNew]
  | cons t axes ih =>
    have hnew : (t < seen.size && !seen.getD t false) = true ↔ seen[t]? = some false := by
      rw [Bool.and_eq_true, decide_eq_true_eq, Array.getElem?_eq_some_iff]
      by_cases ht : t < seen.size <;> simp [Array.getD, ht]
    have hseen : (∀ u ∈ axes, (seen.setIfInBounds t true)[u]? = some false) ↔
        t ∉ axes ∧ ∀ u ∈ axes, seen[u]? = some false := by
      constructor
      · intro h
        have hne : t ∉ axes := fun ht => by simpa [Array.getElem?_setIfInBounds] using h t ht
        refine ⟨hne, fun u hu => ?_⟩
        rw [← h u hu, Array.getElem?_setIfInBounds_ne (ne_of_mem_of_not_mem hu hne).symm]
      · rintro ⟨hne, h⟩ u hu
        rw [Array.getElem?_setIfInBounds_ne (ne_of_mem_of_not_mem hu hne).symm, h u hu]
    rw [allNew, Bool.and_eq_true, hnew, ih, hseen, List.nodup_cons, List.forall_mem_cons]
    tauto

theorem isPermutation_iff {axes : List Nat} {n : Nat} :
    isPermutation axes n = true ↔ axes.Perm (List.range n) := by
  have hrange : ∀ t, (Array.replicate n false)[t]? = some false ↔ t < n := by
    intro t
    simp [Array.getElem?_replicate]
  simp only [isPermutation, Bool.and_eq_true, beq_iff_eq, allNew_iff, hrange]
  constructor
  · rintro ⟨hlength, hnodup, hlt⟩
    have hsub : axes ⊆ List.range n := fun t ht => List.mem_range.2 (hlt t ht)
    refine (List.subperm_of_subset hnodup hsub).perm_of_length_le (Nat.le_of_eq ?_)
    rw [hlength, List.length_range]
  · intro h
    exact ⟨by rw [h.length_eq, List.length_range], h.nodup_iff.2 List.nodup_range,
      fun t ht => List.mem_range.1 (h.mem_iff.1 ht)⟩

/-- A list of as many axes as there are that leaves none of them out. -/
theorem perm_range {axes : List Nat} {n : Nat} (hlength : axes.length = n)
    (hall : ∀ t < n, t ∈ axes) : axes.Perm (List.range n) := by
  have hsub : List.range n ⊆ axes := fun t ht => hall t (List.mem_range.1 ht)
  refine ((List.subperm_of_subset List.nodup_range hsub).perm_of_length_le (Nat.le_of_eq ?_)).symm
  rw [hlength, List.length_range]

/-- What lies along the axes in their new order, read in the old one. -/
theorem unpermute_map {axes : List Nat} (h : ∀ a < axes.length, a ∈ axes) (f : Nat → Nat) :
    unpermute axes (axes.map f) = (List.range axes.length).map f := by
  refine List.map_congr_left fun a ha => ?_
  have hp := List.idxOf_lt_length_of_mem (h a (List.mem_range.1 ha))
  rw [List.getD_eq_getElem?_getD, List.getElem?_map, List.getElem?_eq_getElem hp]
  simp

variable [Inhabited β]

/-- The last axis of an array moved to place `k`. -/
theorem permute_last {a : NDArray β} {s : Shape} {m k : Nat} (hs : a.shape = s ++ [m])
    (hk : k ≤ s.length) :
    ∃ b, a.permute ((List.range s.length).insertIdx k s.length) = .ok b ∧
      b.shape = s.insertIdx k m ∧ ∀ i q, Shape.Within i s → q < m →
        b.entry (i.insertIdx k q) = a.entry (i ++ [q]) := by
  have hlength : ((List.range s.length).insertIdx k s.length).length = s.length + 1 := by
    rw [List.length_insertIdx_of_le_length (by simpa using hk), List.length_range]
  have hmem : ∀ p < s.length + 1, p ∈ (List.range s.length).insertIdx k s.length := by
    intro p hp
    rw [List.mem_insertIdx (by simpa using hk), List.mem_range]
    omega
  have hperm : isPermutation ((List.range s.length).insertIdx k s.length) a.rank = true := by
    have hrank : a.rank = s.length + 1 := by simp [rank, hs]
    exact hrank ▸ isPermutation_iff.2 (perm_range hlength hmem)
  have hshape : ((List.range s.length).insertIdx k s.length).map a.axisLength =
      s.insertIdx k m := by
    have haxis : a.axisLength = fun p => (s ++ [m]).getD p 0 := by
      funext p
      rw [axisLength, hs]
    rw [haxis, map_insertIdx_range]
  refine ⟨_, if_pos hperm, hshape, fun i q hi hq => ?_⟩
  have hwithin := Shape.within_insertIdx hi hk hq
  rw [← hshape] at hwithin
  rw [entry_gather hwithin, ← map_insertIdx_range i q 0, Shape.within_length hi,
    unpermute_map (hlength ▸ hmem), hlength]
  have hall := map_getD_range (i ++ [q]) 0
  rw [List.length_append, List.length_singleton, Shape.within_length hi] at hall
  rw [hall]

end NDArray

end SignalGraph
