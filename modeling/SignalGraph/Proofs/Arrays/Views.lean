import Mathlib.Data.List.GetD
import Mathlib.Data.List.Perm.Subperm
import SignalGraph.Operand.Basic
import SignalGraph.Proofs.Axes

namespace SignalGraph

namespace Shape

/-- An index that is computed axis by axis. -/
theorem within_map {axes : List Nat} {f g : Nat → Nat} :
    Within (axes.map f) (axes.map g) ↔ ∀ t ∈ axes, f t < g t := by
  induction axes with
  | nil => simp [Within]
  | cons t axes ih => simp only [List.map_cons, Within, ih, List.forall_mem_cons]

theorem within_reverse {i : List Nat} {s : Shape} (h : Within i s) : Within i.reverse s.reverse := by
  induction s generalizing i with
  | nil =>
    cases i with
    | nil => trivial
    | cons k i => exact absurd h (by simp [Within])
  | cons n s ih =>
    cases i with
    | nil => exact absurd h (by simp [Within])
    | cons k i =>
      rw [List.reverse_cons, List.reverse_cons]
      exact within_append (ih h.2) ⟨h.1, trivial⟩

/-- The lengths of the axes in another order are multiplied to the same number. -/
theorem size_perm {s t : Shape} (h : s.Perm t) : size s = size t := by
  induction h with
  | nil => rfl
  | cons n _ ih => rw [size, size, ih]
  | swap n m s => simp only [size, Nat.mul_left_comm]
  | trans _ _ ih ih' => exact ih.trans ih'

theorem addressable_perm {s t : Shape} (h : s.Perm t) : addressable s = addressable t := by
  rw [addressable, addressable, size_perm (h.filter _)]

end Shape

namespace NDArray

variable {β : Type}

theorem ext_get? [Inhabited β] {a b : NDArray β} (hs : a.shape = b.shape)
    (h : ∀ i, Shape.Within i a.shape → a.get? i = b.get? i) : a = b :=
  ext_entry hs fun i hi => by rw [entry, entry, h i hi]

theorem get?_none {a : NDArray β} {i : List Nat} (h : ¬ Shape.Within i a.shape) :
    a.get? i = none := by
  rw [get?, if_neg h]

theorem axisLength_map (a : NDArray β) : (List.range a.rank).map a.axisLength = a.shape :=
  map_getD_range a.shape 0

/-- An array takes another shape of the same number of places. -/
theorem reshape_eq_ok {a b : NDArray β} {s : Shape} : a.reshape s = .ok b ↔
    Shape.size s = a.size ∧ Shape.addressable s = true ∧ b.shape = s ∧ b.toList = a.toList := by
  unfold reshape
  split
  · rename_i hword
    constructor
    · intro h
      cases h
    · rintro ⟨hsize, haddress, -⟩
      exact absurd ((Shape.wordSize_of_addressable haddress).trans hsize) hword
  · rw [fill_eq_ok, size_toList]
    exact and_congr_left fun _ => eq_comm

section Permutations

variable {axes inverse : List Nat} {n : Nat}

/-- What is read axis by axis. -/
theorem map_axes {i j : List Nat} (hi : i.length = axes.length)
    (h : ∀ t < axes.length, j.getD (axes.getD t 0) 0 = i.getD t 0) :
    axes.map (j.getD · 0) = i := by
  refine List.ext_getElem (by simp [hi]) fun t ht ht' => ?_
  have hlt : t < axes.length := by simpa using ht
  have he := h t hlt
  rw [List.getD_eq_getElem _ _ hlt, List.getD_eq_getElem _ _ ht'] at he
  rw [List.getElem_map, he]

/-- The order of the axes that undoes another one. -/
structure Undoes (inverse axes : List Nat) (n : Nat) : Prop where
  perm : axes.Perm (List.range n)
  length : inverse.length = n
  inverse : ∀ t < n, inverse.getD (axes.getD t 0) 0 = t

theorem Undoes.axis (h : Undoes inverse axes n) {t : Nat} (ht : t < n) :
    ∃ s, ∃ hs : s < axes.length, axes[s] = t ∧ inverse.getD t 0 = s := by
  obtain ⟨s, hs, rfl⟩ := List.mem_iff_getElem.1 (h.perm.mem_iff.2 (List.mem_range.2 ht))
  have hlt : s < n := by rwa [h.perm.length_eq, List.length_range] at hs
  exact ⟨s, hs, rfl, List.getD_eq_getElem axes 0 hs ▸ h.inverse s hlt⟩

/-- What lies along the axes in their new order, brought back to the old one. -/
theorem Undoes.map_map (h : Undoes inverse axes n) (f : Nat → Nat) :
    inverse.map ((axes.map f).getD · 0) = (List.range n).map f := by
  refine List.ext_getElem (by simp [h.length]) fun t ht ht' => ?_
  have hlt : t < n := by simpa using ht'
  obtain ⟨s, hs, hst, hts⟩ := h.axis hlt
  rw [List.getD_eq_getElem _ _ (h.length ▸ hlt)] at hts
  rw [List.getElem_map, List.getElem_map, List.getElem_range, hts,
    List.getD_eq_getElem _ _ (by simpa using hs), List.getElem_map, hst]

theorem Undoes.symm (h : Undoes inverse axes n) : inverse.Perm (List.range n) := by
  refine perm_range h.length fun t ht => ?_
  have haxes : t < axes.length := by rwa [h.perm.length_eq, List.length_range]
  have hlt : axes[t] < inverse.length := by
    rw [h.length]
    exact List.mem_range.1 (h.perm.mem_iff.1 (List.getElem_mem haxes))
  have hget := h.inverse t ht
  rw [List.getD_eq_getElem axes 0 haxes, List.getD_eq_getElem inverse 0 hlt] at hget
  exact List.mem_of_getElem hget

/-- An index of a permuted array is an index of its source in the new order of the axes. -/
theorem unpermute_axes (hperm : axes.Perm (List.range n)) {i : List Nat} (hi : i.length = n) :
    axes.map ((unpermute axes i).getD · 0) = i := by
  have haxes : axes.length = n := by rw [hperm.length_eq, List.length_range]
  refine map_axes (hi.trans haxes.symm) fun t ht => ?_
  have hlt : axes[t] < axes.length := by
    rw [haxes]
    exact List.mem_range.1 (hperm.mem_iff.1 (List.getElem_mem ht))
  rw [List.getD_eq_getElem axes 0 ht, unpermute, List.getD_eq_getElem _ 0 (by simpa using hlt),
    List.getElem_map, List.getElem_range,
    (hperm.nodup_iff.2 List.nodup_range).idxOf_getElem]

end Permutations

variable [Inhabited β] {a b : NDArray β}

theorem get?_gather {s : Shape} {f : List Nat → List Nat} {i : List Nat} (h : Shape.Within i s) :
    (a.gather s f).get? i = some (a.entry (f i)) :=
  get?_tabulate h

section Axes

variable {axes : List Nat}

theorem permute_eq_ok : a.permute axes = .ok b ↔
    axes.Perm (List.range a.rank) ∧ b = a.gather (axes.map a.axisLength) (unpermute axes) := by
  unfold permute
  split
  · rename_i h
    simp [isPermutation_iff.1 h, eq_comm]
  · rename_i h
    simp [mt isPermutation_iff.2 h]

/-- What stands at an index stands at the same numbers in the new order of the axes. -/
theorem get?_permute_map {j : List Nat} (h : a.permute axes = .ok b) (hj : j.length = a.rank) :
    b.get? (axes.map (j.getD · 0)) = a.get? j := by
  obtain ⟨hperm, rfl⟩ := permute_eq_ok.1 h
  have hlength : axes.length = a.rank := by rw [hperm.length_eq, List.length_range]
  have hjmap : (List.range a.rank).map (j.getD · 0) = j := hj ▸ map_getD_range j 0
  have hwithin : Shape.Within (axes.map (j.getD · 0)) (axes.map a.axisLength) ↔
      Shape.Within j a.shape := by
    rw [← axisLength_map a]
    nth_rewrite 2 [← hjmap]
    simp only [Shape.within_map, hperm.mem_iff]
  by_cases hw : Shape.Within j a.shape
  · have hmem : ∀ t < axes.length, t ∈ axes :=
      fun t ht => hperm.mem_iff.2 (List.mem_range.2 (hlength ▸ ht))
    rw [get?_gather (hwithin.2 hw), get?_eq_entry hw, unpermute_map hmem, hlength, hjmap]
  · rw [get?_none hw]
    exact get?_none (mt hwithin.1 hw)

/-- What stands at an index of a permuted array stands in its source where axis `axes[t]` has the
number that axis `t` has here. -/
theorem get?_permute {i j : List Nat} (h : a.permute axes = .ok b) (hi : i.length = a.rank)
    (hj : j.length = a.rank) (hij : ∀ t < a.rank, j.getD (axes.getD t 0) 0 = i.getD t 0) :
    b.get? i = a.get? j := by
  have hlength : axes.length = a.rank := by
    rw [(permute_eq_ok.1 h).1.length_eq, List.length_range]
  rw [← map_axes (hi.trans hlength.symm) (hlength ▸ hij), get?_permute_map h hj]

/-- The inverse permutation of the axes leads back. -/
theorem permute_undoes {inverse : List Nat} (h : a.permute axes = .ok b)
    (hu : Undoes inverse axes a.rank) : b.permute inverse = .ok a := by
  have hlength : axes.length = a.rank := by rw [hu.perm.length_eq, List.length_range]
  have hshape : b.shape = axes.map a.axisLength := by rw [(permute_eq_ok.1 h).2, shape_gather]
  have hrank : b.rank = a.rank := by rw [rank, hshape, List.length_map, hlength]
  obtain ⟨c, hc⟩ : ∃ c, b.permute inverse = .ok c := ⟨_, permute_eq_ok.2 ⟨hrank ▸ hu.symm, rfl⟩⟩
  have hcshape : c.shape = a.shape := by
    have hback : c.shape = inverse.map ((axes.map a.axisLength).getD · 0) := by
      rw [(permute_eq_ok.1 hc).2, shape_gather, ← hshape]
      rfl
    rw [hback, hu.map_map, axisLength_map]
  refine hc.trans (congrArg Except.ok (ext_get? hcshape fun j hj => ?_))
  have hj : j.length = a.rank := (Shape.within_length hj).trans (hcshape ▸ rfl)
  have hback := get?_permute_map hc (j := axes.map (j.getD · 0)) (by rw [List.length_map, hlength, hrank])
  have hjmap : (List.range a.rank).map (j.getD · 0) = j := hj ▸ map_getD_range j 0
  rw [hu.map_map, hjmap] at hback
  rw [hback, get?_permute_map h hj]

theorem transpose_transpose (a : NDArray β) : a.transpose.transpose = a := by
  refine ext_entry (List.reverse_reverse a.shape) fun i hi => ?_
  have hi' : Shape.Within i a.shape.reverse.reverse := hi
  have hr : Shape.Within i.reverse a.shape.reverse :=
    Shape.within_reverse (List.reverse_reverse a.shape ▸ hi')
  have houter : a.transpose.transpose.entry i = a.transpose.entry i.reverse := entry_gather hi'
  have hinner : a.transpose.entry i.reverse = a.entry i.reverse.reverse := entry_gather hr
  rw [houter, hinner, List.reverse_reverse]

/-- A transposed array has its axes in reverse order. -/
theorem permute_reverse (a : NDArray β) : a.permute (List.range a.rank).reverse = .ok a.transpose := by
  have hperm : (List.range a.rank).reverse.Perm (List.range a.rank) := List.reverse_perm _
  refine permute_eq_ok.2 ⟨hperm, ?_⟩
  rw [List.map_reverse, axisLength_map]
  refine gather_congr fun i hi => ?_
  have hlength : i.reverse.length = a.rank := by
    rw [List.length_reverse, Shape.within_length hi, List.length_reverse, rank]
  have hreverse : (List.range a.rank).map (i.reverse.getD · 0) = i.reverse :=
    hlength ▸ map_getD_range i.reverse 0
  have hindex : i = (List.range a.rank).reverse.map (i.reverse.getD · 0) := by
    rw [List.map_reverse, hreverse, List.reverse_reverse]
  have hmem : ∀ t < (List.range a.rank).reverse.length, t ∈ (List.range a.rank).reverse := by
    intro t ht
    simpa using ht
  have hback := unpermute_map hmem (i.reverse.getD · 0)
  rw [← hindex, List.length_reverse, List.length_range, hreverse] at hback
  exact hback.symm

end Axes

section Along

variable {axis : Nat}

theorem indexAxis_eq_ok {k : Nat} : a.indexAxis axis k = .ok b ↔
    axis < a.rank ∧ k < a.axisLength axis ∧
      b = a.gather (a.shape.eraseIdx axis) (·.insertIdx axis k) := by
  unfold indexAxis
  simp only [bind_eq_ok, Shape.checkAxis_eq_ok, exists_const]
  refine and_congr_right fun _ => ?_
  split
  · rename_i h
    simp [Nat.not_lt.2 h, throw_ne_ok]
  · rename_i h
    rw [and_iff_right (Nat.not_le.1 h), pure_eq_ok, eq_comm]

theorem sliceAxis_eq_ok {start stop : Nat} : a.sliceAxis axis start stop = .ok b ↔
    axis < a.rank ∧ (start ≤ stop ∧ stop ≤ a.axisLength axis) ∧
      b = a.gather (a.shape.set axis (stop - start)) (·.modify axis (start + ·)) := by
  unfold sliceAxis
  simp only [bind_eq_ok, Shape.checkAxis_eq_ok, exists_const]
  refine and_congr_right fun _ => ?_
  split
  · rename_i h
    have hout : ¬ (start ≤ stop ∧ stop ≤ a.axisLength axis) := by
      simp only [Bool.or_eq_true, decide_eq_true_eq] at h
      omega
    simp [hout, throw_ne_ok]
  · rename_i h
    have hin : start ≤ stop ∧ stop ≤ a.axisLength axis := by
      simp only [Bool.or_eq_true, decide_eq_true_eq] at h
      omega
    rw [and_iff_right hin, pure_eq_ok, eq_comm]

theorem select_eq_ok {ks : List Nat} : a.select axis ks = .ok b ↔
    axis < a.rank ∧ (∀ k ∈ ks, k < a.axisLength axis) ∧
      b = a.gather (a.shape.set axis ks.length) (·.modify axis (ks.getD · 0)) := by
  unfold select
  simp only [bind_eq_ok, Shape.checkAxis_eq_ok, exists_const]
  refine and_congr_right fun _ => ?_
  split
  · rename_i k hk
    have hout : ¬ ∀ k ∈ ks, k < a.axisLength axis := fun h =>
      absurd (h k (List.mem_of_find?_eq_some hk)) (by simpa using List.find?_some hk)
    simp [hout, throw_ne_ok]
  · rename_i hnone
    have hin : ∀ k ∈ ks, k < a.axisLength axis := by simpa using List.find?_eq_none.1 hnone
    rw [and_iff_right hin, pure_eq_ok, eq_comm]

theorem insertAxis_eq_ok : a.insertAxis axis = .ok b ↔
    axis ≤ a.rank ∧ b = a.gather (a.shape.insertIdx axis 1) (·.eraseIdx axis) := by
  unfold insertAxis
  simp only [bind_eq_ok, Shape.checkAxis_eq_ok, exists_const, Nat.lt_succ_iff]
  rw [pure_eq_ok, eq_comm]

/-- An array that is read elsewhere along an axis. -/
theorem entry_gather_modify {m q : Nat} {f : Nat → Nat} {j : List Nat} (haxis : axis < a.rank)
    (hj : Shape.Within j (a.shape.eraseIdx axis)) (hq : q < m) :
    (a.gather (a.shape.set axis m) (·.modify axis f)).entry (j.insertIdx axis q) =
      a.entry (j.insertIdx axis (f q)) := by
  have hle := Shape.le_length_eraseIdx haxis
  have hwithin := Shape.within_insertIdx hj hle hq
  rw [← Shape.set_axis haxis] at hwithin
  rw [entry_gather hwithin, modify_insertIdx (Shape.within_length hj ▸ hle)]

/-- What stands at a place of a selection stood at the place selected. -/
theorem select_indexAxis {ks : List Nat} (h : a.select axis ks = .ok b) {t : Nat}
    (ht : t < ks.length) : b.indexAxis axis t = a.indexAxis axis (ks.getD t 0) := by
  obtain ⟨haxis, hks, rfl⟩ := select_eq_ok.1 h
  have hk : ks.getD t 0 < a.axisLength axis := by
    rw [List.getD_eq_getElem _ _ ht]
    exact hks _ (List.getElem_mem ht)
  have hlength : (a.shape.set axis ks.length).getD axis 0 = ks.length := by
    rw [Shape.set_axis haxis, Shape.getD_insertIdx (Shape.le_length_eraseIdx haxis)]
  rw [indexAxis_eq_ok.2 ⟨haxis, hk, rfl⟩]
  refine indexAxis_eq_ok.2 ⟨by simpa [rank] using haxis, by rwa [axisLength, shape_gather, hlength], ?_⟩
  refine ext_entry (by simp [List.eraseIdx_set_eq]) fun j hj => ?_
  have hj : Shape.Within j (a.shape.eraseIdx axis) := hj
  have hj' : Shape.Within j ((a.shape.set axis ks.length).eraseIdx axis) := by
    rwa [List.eraseIdx_set_eq]
  rw [entry_gather hj, shape_gather, entry_gather hj', entry_gather_modify haxis hj ht]

/-- A slice is the selection of the places between its ends. -/
theorem sliceAxis_eq_select {start stop : Nat} (haxis : axis < a.rank) (hle : start ≤ stop)
    (hstop : stop ≤ a.axisLength axis) :
    a.sliceAxis axis start stop = a.select axis (List.range' start (stop - start)) := by
  have hks : ∀ k ∈ List.range' start (stop - start), k < a.axisLength axis := by
    intro k hk
    rw [List.mem_range'_1] at hk
    omega
  rw [select_eq_ok.2 ⟨haxis, hks, rfl⟩, List.length_range']
  refine sliceAxis_eq_ok.2 ⟨haxis, ⟨hle, hstop⟩, gather_congr fun i hi => ?_⟩
  rw [Shape.set_axis haxis] at hi
  obtain ⟨j, q, rfl, hj, hq⟩ := Shape.exists_insertIdx (Shape.le_length_eraseIdx haxis) hi
  have hk := Shape.within_length hj ▸ Shape.le_length_eraseIdx haxis
  rw [modify_insertIdx hk, modify_insertIdx hk, List.getD_eq_getElem _ _ (by simpa using hq),
    List.getElem_range', Nat.one_mul]

end Along

/-- What is gathered from places of an array. -/
theorem mem_gather {s : Shape} {f : List Nat → List Nat}
    (h : ∀ i, Shape.Within i s → Shape.Within (f i) a.shape) {x : β}
    (hx : x ∈ (a.gather s f).toList) : x ∈ a.toList := by
  obtain ⟨i, hi, rfl⟩ := mem_toList.1 hx
  have hi : Shape.Within i s := hi
  rw [entry_gather hi]
  exact mem_toList.2 ⟨f i, h i hi, rfl⟩

/-- What is read elsewhere along an axis of an array. -/
theorem mem_gather_modify {axis m : Nat} {f : Nat → Nat} (haxis : axis < a.rank)
    (hf : ∀ q < m, f q < a.axisLength axis) {x : β}
    (hx : x ∈ (a.gather (a.shape.set axis m) (·.modify axis f)).toList) : x ∈ a.toList := by
  refine mem_gather (fun i hi => ?_) hx
  have hle := Shape.le_length_eraseIdx haxis
  rw [Shape.set_axis haxis] at hi
  obtain ⟨j, q, rfl, hj, hq⟩ := Shape.exists_insertIdx hle hi
  have hwithin := Shape.within_insertIdx hj hle (hf q hq)
  rw [axisLength, Shape.insertIdx_axis haxis] at hwithin
  rwa [modify_insertIdx (Shape.within_length hj ▸ hle)]

/-- The arrays that views, and views of views, lead to from an array. -/
inductive View (a : NDArray β) : NDArray β → Prop
  | source : View a a
  | reshape {b c : NDArray β} {s : Shape} : View a b → b.reshape s = .ok c → View a c
  | transpose {b : NDArray β} : View a b → View a b.transpose
  | permute {b c : NDArray β} {axes : List Nat} : View a b → b.permute axes = .ok c → View a c
  | indexAxis {b c : NDArray β} {axis k : Nat} : View a b → b.indexAxis axis k = .ok c → View a c
  | sliceAxis {b c : NDArray β} {axis start stop : Nat} :
    View a b → b.sliceAxis axis start stop = .ok c → View a c
  | select {b c : NDArray β} {axis : Nat} {ks : List Nat} :
    View a b → b.select axis ks = .ok c → View a c
  | insertAxis {b c : NDArray β} {axis : Nat} : View a b → b.insertAxis axis = .ok c → View a c

theorem mem_permute {axes : List Nat} (h : a.permute axes = .ok b) {x : β} (hx : x ∈ b.toList) :
    x ∈ a.toList := by
  obtain ⟨hperm, hb⟩ := permute_eq_ok.1 h
  obtain ⟨i, hi, rfl⟩ := mem_toList.1 hx
  have hlength : i.length = a.rank := by
    rw [Shape.within_length hi, hb, shape_gather, List.length_map, hperm.length_eq, List.length_range]
  have haxes : axes.length = a.rank := by rw [hperm.length_eq, List.length_range]
  have hget := get?_permute_map h (j := unpermute axes i) (by simp [unpermute, haxes])
  rw [unpermute_axes hperm hlength, get?_eq_entry hi] at hget
  exact List.mem_of_getElem? (get?_eq_some.1 hget.symm).2

/-- A view holds nothing that its source does not hold. -/
theorem View.mem (h : View a b) {x : β} (hx : x ∈ b.toList) : x ∈ a.toList := by
  induction h with
  | source => exact hx
  | reshape _ hc ih => exact ih ((reshape_eq_ok.1 hc).2.2.2 ▸ hx)
  | @transpose b _ ih =>
    refine ih (mem_gather (fun i hi => ?_) hx)
    exact List.reverse_reverse b.shape ▸ Shape.within_reverse hi
  | permute _ hc ih => exact ih (mem_permute hc hx)
  | @indexAxis b c axis k _ hc ih =>
    obtain ⟨haxis, hk, rfl⟩ := indexAxis_eq_ok.1 hc
    refine ih (mem_gather (fun i hi => ?_) hx)
    have hwithin := Shape.within_insertIdx hi (Shape.le_length_eraseIdx haxis) hk
    rwa [axisLength, Shape.insertIdx_axis haxis] at hwithin
  | sliceAxis _ hc ih =>
    obtain ⟨haxis, ⟨hle, hstop⟩, rfl⟩ := sliceAxis_eq_ok.1 hc
    refine ih (mem_gather_modify haxis (fun q hq => ?_) hx)
    omega
  | select _ hc ih =>
    obtain ⟨haxis, hks, rfl⟩ := select_eq_ok.1 hc
    refine ih (mem_gather_modify haxis (fun q hq => ?_) hx)
    rw [List.getD_eq_getElem _ _ hq]
    exact hks _ (List.getElem_mem hq)
  | insertAxis _ hc ih =>
    obtain ⟨haxis, rfl⟩ := insertAxis_eq_ok.1 hc
    refine ih (mem_gather (fun i hi => ?_) hx)
    obtain ⟨j, q, rfl, hj, -⟩ := Shape.exists_insertIdx haxis hi
    rwa [List.eraseIdx_insertIdx_self]

end NDArray

section Folds

open NDArray

/-- Views only rearrange the nodes of an array. Permuting succeeds for the permutations of the axes,
takes each node from the index with the numbers in the new order, and the inverse permutation undoes
it. Reshaping succeeds for the shapes with as many places and keeps the nodes in row-major order, those
of a permuted array in the order that they have there. Selecting along an axis puts the selected parts
in order, and slicing selects the places between two ends. -/
theorem views_reindex {f : Fold} (hf : Shape.addressable f.shape = true) :
    (∀ axes, (∃ r, f.permute axes = .ok r) ↔ axes.Perm (List.range f.rank)) ∧
    (∀ axes r, f.permute axes = .ok r →
      r.shape = axes.map f.axisLength ∧ Shape.addressable r.shape = true ∧
      (∀ i j : List Nat, i.length = f.rank → j.length = f.rank →
        (∀ t < f.rank, j.getD (axes.getD t 0) 0 = i.getD t 0) → r.get? i = f.get? j) ∧
      (∀ inverse : List Nat, inverse.length = f.rank →
        (∀ t < f.rank, inverse.getD (axes.getD t 0) 0 = t) → r.permute inverse = .ok f) ∧
      ∀ s q, r.reshape s = .ok q →
        q.toList = (Shape.indices r.shape).map (fun i => f.entry (unpermute axes i)) ∧
        q.reshape r.shape = .ok r) ∧
    (f.transpose.transpose = f ∧ f.permute (List.range f.rank).reverse = .ok f.transpose) ∧
    (∀ s, Shape.addressable s = true → ((∃ r, f.reshape s = .ok r) ↔ Shape.size s = f.size)) ∧
    (∀ s r, f.reshape s = .ok r →
      r.shape = s ∧ r.toList = f.toList ∧ r.reshape f.shape = .ok f) ∧
    (∀ axis ks, (∃ r, f.select axis ks = .ok r) ↔
      axis < f.rank ∧ ∀ k ∈ ks, k < f.axisLength axis) ∧
    (∀ axis ks r, f.select axis ks = .ok r → ∀ t < ks.length, ∃ part,
      r.indexAxis axis t = .ok part ∧ f.indexAxis axis (ks.getD t 0) = .ok part) ∧
    (∀ axis start stop, (∃ r, f.sliceAxis axis start stop = .ok r) ↔
      axis < f.rank ∧ start ≤ stop ∧ stop ≤ f.axisLength axis) ∧
    (∀ axis start stop r, f.sliceAxis axis start stop = .ok r →
      f.select axis (List.range' start (stop - start)) = .ok r) ∧
    ∀ r, View f r → ∀ n ∈ r.toList, n ∈ f.toList := by
  refine ⟨fun axes => by simp [permute_eq_ok], fun axes r hr => ?_,
    ⟨transpose_transpose f, permute_reverse f⟩, fun s hs => ?_, fun s r hr => ?_,
    fun axis ks => by simp [select_eq_ok], fun axis ks r hr t ht => ?_,
    fun axis start stop => by simp [sliceAxis_eq_ok], fun axis start stop r hr => ?_,
    fun r hr n hn => hr.mem hn⟩
  · obtain ⟨hperm, hgather⟩ := permute_eq_ok.1 hr
    have hshape : r.shape = axes.map f.axisLength := by rw [hgather, shape_gather]
    have haddress : Shape.addressable r.shape = true := by
      rw [hshape, Shape.addressable_perm (hperm.map _), axisLength_map, hf]
    refine ⟨hshape, haddress, fun i j hi hj hij => get?_permute hr hi hj hij,
      fun inverse hlength hinverse => permute_undoes hr ⟨hperm, hlength, hinverse⟩,
      fun s q hq => ?_⟩
    obtain ⟨hsize, hs, hqshape, hvalues⟩ := reshape_eq_ok.1 hq
    refine ⟨?_, reshape_eq_ok.2 ⟨?_, haddress, rfl, hvalues.symm⟩⟩
    · rw [hvalues, toList_eq_indices]
      refine List.map_congr_left fun i hi => ?_
      have hi := Shape.mem_indices.1 hi
      rw [hshape] at hi
      rw [hgather, entry_gather hi]
    · rw [size, hqshape, hsize, size]
  · constructor
    · rintro ⟨r, hr⟩
      exact (reshape_eq_ok.1 hr).1
    · intro hsize
      have hlength : f.toList.length = Shape.size s := f.size_toList.trans hsize.symm
      obtain ⟨r, hshape, hvalues, -⟩ := store_eq hlength
      exact ⟨r, reshape_eq_ok.2 ⟨hsize, hs, hshape, hvalues⟩⟩
  · obtain ⟨hsize, hs, hshape, hvalues⟩ := reshape_eq_ok.1 hr
    exact ⟨hshape, hvalues, reshape_eq_ok.2 ⟨by rw [size, hshape, hsize, size], hf, rfl, hvalues.symm⟩⟩
  · obtain ⟨haxis, hks, -⟩ := select_eq_ok.1 hr
    have hk : ks.getD t 0 < f.axisLength axis := by
      rw [List.getD_eq_getElem _ _ ht]
      exact hks _ (List.getElem_mem ht)
    have hpart := indexAxis_eq_ok.2 ⟨haxis, hk, rfl⟩
    exact ⟨_, (select_indexAxis hr ht).trans hpart, hpart⟩
  · obtain ⟨haxis, ⟨hle, hstop⟩, -⟩ := sliceAxis_eq_ok.1 hr
    exact (sliceAxis_eq_select haxis hle hstop).symm.trans hr

/-- Two rows of three nodes each. -/
def sixNodes : Fold := ⟨[2, 3, 1], #v[⟨0⟩, ⟨1⟩, ⟨2⟩, ⟨3⟩, ⟨4⟩, ⟨5⟩]⟩

/-- The axes of the rows are turned round and back, and the columns come one behind the other. -/
theorem sixNodes_turned : ∃ r q, sixNodes.permute [1, 2, 0] = .ok r ∧ r.shape = [3, 1, 2] ∧
    r.permute [2, 0, 1] = .ok sixNodes ∧ r.reshape [6] = .ok q ∧
    q.toList = [⟨0⟩, ⟨3⟩, ⟨1⟩, ⟨4⟩, ⟨2⟩, ⟨5⟩] ∧ q.reshape [3, 1, 2] = .ok r := by
  obtain ⟨hpermute, hpermuted, -⟩ := views_reindex (f := sixNodes) (by decide)
  obtain ⟨r, hr⟩ := (hpermute [1, 2, 0]).2 (by decide)
  obtain ⟨hshape, haddress, -, hinverse, hreshape⟩ := hpermuted _ r hr
  have hshape : r.shape = [3, 1, 2] := hshape
  obtain ⟨q, hq⟩ : ∃ q, r.reshape [6] = .ok q := by
    obtain ⟨-, -, -, hsizes, -⟩ := views_reindex haddress
    exact (hsizes [6] (by decide)).2 (by rw [size, hshape]; decide)
  obtain ⟨hvalues, hback⟩ := hreshape [6] q hq
  refine ⟨r, q, hr, hshape, hinverse [2, 0, 1] rfl (by decide), hq, ?_, hshape ▸ hback⟩
  rw [hvalues, hshape]
  decide +kernel

end Folds

end SignalGraph
