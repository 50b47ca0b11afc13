import SignalGraph.NDArray.Join
import SignalGraph.Proofs.Arrays.Views

namespace SignalGraph

theorem set_insertIdx {γ : Type} {l : List γ} {k : Nat} (hk : k ≤ l.length) (x y : γ) :
    (l.insertIdx k x).set k y = l.insertIdx k y := by
  rw [List.set_eq_modify, modify_insertIdx hk]

namespace NDArray

variable {β : Type}

/-- Shapes are joinable along an axis when they have the same other axes. -/
theorem joinable_iff {axis : Nat} {s t : Shape} (haxis : axis < s.length) :
    joinable axis s t = true ↔ t = (s.eraseIdx axis).insertIdx axis (t.getD axis 0) := by
  rw [joinable, Bool.and_eq_true, beq_iff_eq, beq_iff_eq]
  constructor
  · rintro ⟨hlength, herase⟩
    rw [herase, Shape.insertIdx_axis (hlength ▸ haxis)]
  · intro h
    have hle := Shape.le_length_eraseIdx haxis
    rw [h]
    refine ⟨?_, (List.eraseIdx_insertIdx_self _).symm⟩
    rw [List.length_insertIdx_of_le_length hle, List.length_eraseIdx_of_lt haxis]
    omega

/-- Joinable shapes have lengths in common everywhere else. -/
theorem joinable_iff_getD {axis : Nat} {s t : Shape} :
    joinable axis s t = true ↔ t.length = s.length ∧ ∀ k, k ≠ axis → t.getD k 0 = s.getD k 0 := by
  rw [joinable, Bool.and_eq_true, beq_iff_eq, beq_iff_eq]
  constructor
  · rintro ⟨hlength, herase⟩
    refine ⟨hlength.symm, fun k hk => ?_⟩
    have hat : ∀ m : Nat, (s.eraseIdx axis)[m]? = (t.eraseIdx axis)[m]? := fun m => by rw [herase]
    simp only [List.getElem?_eraseIdx] at hat
    rw [List.getD_eq_getElem?_getD, List.getD_eq_getElem?_getD]
    rcases Nat.lt_or_gt_of_ne hk with hlt | hgt
    · have hk' := hat k
      rw [if_pos hlt, if_pos hlt] at hk'
      rw [hk']
    · obtain ⟨m, rfl⟩ := Nat.exists_eq_succ_of_ne_zero (Nat.ne_zero_of_lt hgt)
      have hm := hat m
      rw [if_neg (by omega), if_neg (by omega)] at hm
      rw [hm]
  · rintro ⟨hlength, hget⟩
    refine ⟨hlength.symm, List.ext_getElem (by simp [List.length_eraseIdx, hlength])
      fun m hs ht => ?_⟩
    rw [List.getElem_eraseIdx, List.getElem_eraseIdx]
    split
    · rename_i hlt
      rw [← List.getD_eq_getElem s 0, ← List.getD_eq_getElem t 0, hget m (by omega)]
    · rename_i hle
      rw [← List.getD_eq_getElem s 0, ← List.getD_eq_getElem t 0, hget (m + 1) (by omega)]

variable [Inhabited β]

theorem concatenate_eq_ok {first r : NDArray β} {rest : List (NDArray β)} {axis : Nat} :
    concatenate (first :: rest) axis = .ok r ↔
      axis < first.rank ∧ (∀ a ∈ first :: rest, joinable axis first.shape a.shape = true) ∧
      Shape.addressable
        (first.shape.set axis (Shape.total ((first :: rest).map (axisLength · axis)))) = true ∧
      r = tabulate (first.shape.set axis (Shape.total ((first :: rest).map (axisLength · axis))))
        (entryAlong axis (first :: rest)) := by
  unfold concatenate
  simp only [bind_eq_ok, Shape.checkAxis_eq_ok, exists_const]
  refine and_congr_right fun _ => ?_
  split
  · rename_i a ha
    have hout : ¬ ∀ a ∈ first :: rest, joinable axis first.shape a.shape = true := fun h =>
      absurd (h a (List.mem_of_find?_eq_some ha)) (by simpa using List.find?_some ha)
    simp only [hout, false_and, iff_false]
    exact throw_ne_ok
  · rename_i hnone
    have hin : ∀ a ∈ first :: rest, joinable axis first.shape a.shape = true := by
      simpa using List.find?_eq_none.1 hnone
    rw [and_iff_right hin]
    refine guard_eq_ok.trans (and_congr ?_ ?_)
    · simp
    · rw [pure_eq_ok, eq_comm]

/-- An entry of arrays laid behind each other is one of the array that it falls in. -/
theorem entryAlong_append {axis : Nat} {j : List Nat} (haxis : axis ≤ j.length)
    (before : List (NDArray β)) (a : NDArray β) (after : List (NDArray β)) {q : Nat}
    (hq : q < a.axisLength axis) :
    entryAlong axis (before ++ a :: after)
      (j.insertIdx axis (Shape.total (before.map (axisLength · axis)) + q)) =
        a.entry (j.insertIdx axis q) := by
  induction before with
  | nil =>
    rw [List.nil_append, entryAlong, Shape.getD_insertIdx haxis]
    simp only [List.map_nil, Shape.total, List.foldr_nil, Nat.zero_add]
    rw [if_pos hq]
  | cons b before ih =>
    have htotal : Shape.total ((b :: before).map (axisLength · axis)) =
        b.axisLength axis + Shape.total (before.map (axisLength · axis)) := rfl
    rw [List.cons_append, entryAlong, Shape.getD_insertIdx haxis, htotal]
    rw [if_neg (by omega), set_insertIdx haxis, ← ih]
    congr 2
    omega

section Along

variable {first a r : NDArray β} {rest : List (NDArray β)} {axis : Nat}

/-- What stands in joined arrays stood in one of them, at the place less the lengths before it. -/
theorem entry_concatenate (h : concatenate (first :: rest) axis = .ok r)
    {before after : List (NDArray β)} (hsplit : first :: rest = before ++ a :: after) {j : List Nat}
    (hj : Shape.Within j (first.shape.eraseIdx axis)) {q : Nat} (hq : q < a.axisLength axis) :
    r.entry (j.insertIdx axis (Shape.total (before.map (axisLength · axis)) + q)) =
      a.entry (j.insertIdx axis q) := by
  obtain ⟨haxis, -, -, rfl⟩ := concatenate_eq_ok.1 h
  have hle := Shape.le_length_eraseIdx haxis
  have htotal : Shape.total ((first :: rest).map (axisLength · axis)) =
      Shape.total (before.map (axisLength · axis)) +
        (a.axisLength axis + Shape.total (after.map (axisLength · axis))) := by
    rw [hsplit, List.map_append]
    exact List.sum_append
  have hwithin := Shape.within_insertIdx hj hle
    (show Shape.total (before.map (axisLength · axis)) + q <
      Shape.total ((first :: rest).map (axisLength · axis)) by omega)
  rw [← Shape.set_axis haxis] at hwithin
  rw [entry_tabulate hwithin, hsplit,
    entryAlong_append (Shape.within_length hj ▸ hle) before a after hq]

/-- Slicing joined arrays where one of them was laid gives it back. -/
theorem sliceAxis_concatenate (h : concatenate (first :: rest) axis = .ok r)
    {before after : List (NDArray β)} (hsplit : first :: rest = before ++ a :: after) :
    r.sliceAxis axis (Shape.total (before.map (axisLength · axis)))
      (Shape.total (before.map (axisLength · axis)) + a.axisLength axis) = .ok a := by
  obtain ⟨haxis, hall, -, hr⟩ := concatenate_eq_ok.1 h
  have hle := Shape.le_length_eraseIdx haxis
  have hshape : r.shape = (first.shape.eraseIdx axis).insertIdx axis
      (Shape.total ((first :: rest).map (axisLength · axis))) := by
    rw [hr, shape_tabulate, Shape.set_axis haxis]
  have hrank : axis < r.rank := by
    rw [rank, hshape, List.length_insertIdx_of_le_length hle]
    omega
  have herase : r.shape.eraseIdx axis = first.shape.eraseIdx axis := by
    rw [hshape, List.eraseIdx_insertIdx_self]
  have hlength : r.axisLength axis = Shape.total (before.map (axisLength · axis)) +
      (a.axisLength axis + Shape.total (after.map (axisLength · axis))) := by
    rw [axisLength, hshape, Shape.getD_insertIdx hle, hsplit, List.map_append]
    exact List.sum_append
  have hmem : a ∈ first :: rest := by simp [hsplit]
  have hashape : a.shape = (first.shape.eraseIdx axis).insertIdx axis (a.axisLength axis) :=
    (joinable_iff haxis).1 (hall a hmem)
  refine sliceAxis_eq_ok.2 ⟨hrank, ⟨Nat.le_add_right _ _, by omega⟩, ?_⟩
  rw [Nat.add_sub_cancel_left]
  refine ext_entry ?_ fun i hi => ?_
  · rw [shape_gather, Shape.set_axis hrank, herase, ← hashape]
  · rw [hashape] at hi
    obtain ⟨j, q, rfl, hj, hq⟩ := Shape.exists_insertIdx hle hi
    rw [entry_gather_modify hrank (herase.symm ▸ hj) hq, entry_concatenate h hsplit hj hq]

/-- An array that has arrays of one shape at the places of a new axis. -/
structure Stacked (arrays : List (NDArray β)) (s : Shape) (axis : Nat) (r : NDArray β) : Prop where
  shape : r.shape = s.insertIdx axis arrays.length
  shapes : ∀ a ∈ arrays, a.shape = s
  entry : ∀ {i : Nat} {a : NDArray β}, arrays[i]? = some a → ∀ {j : List Nat}, Shape.Within j s →
    r.entry (j.insertIdx axis i) = a.entry j

theorem Stacked.indexAxis {arrays : List (NDArray β)} {s : Shape} (h : Stacked arrays s axis r)
    (haxis : axis ≤ s.length) {i : Nat} (hi : arrays[i]? = some a) :
    r.indexAxis axis i = .ok a := by
  obtain ⟨hlt, rfl⟩ := List.getElem?_eq_some_iff.1 hi
  have herase : r.shape.eraseIdx axis = s := by rw [h.shape, List.eraseIdx_insertIdx_self]
  have hshape : arrays[i].shape = s := h.shapes _ (List.getElem_mem hlt)
  refine indexAxis_eq_ok.2 ⟨?_, ?_, ext_entry (herase ▸ hshape) fun j hj => ?_⟩
  · rw [rank, h.shape, List.length_insertIdx_of_le_length haxis]
    omega
  · rwa [axisLength, h.shape, Shape.getD_insertIdx haxis]
  · have hj : Shape.Within j s := hshape ▸ hj
    rw [herase, entry_gather hj, h.entry hi hj]

theorem Stacked.unique {arrays : List (NDArray β)} {s : Shape} {r' : NDArray β}
    (haxis : axis ≤ s.length) (h : Stacked arrays s axis r) (h' : Stacked arrays s axis r') :
    r = r' := by
  refine ext_entry (h.shape.trans h'.shape.symm) fun i hi => ?_
  rw [h.shape] at hi
  obtain ⟨j, q, rfl, hj, hq⟩ := Shape.exists_insertIdx haxis hi
  have hget := List.getElem?_eq_getElem hq
  rw [h.entry hget hj, h'.entry hget hj]

/-- Values of arrays of one shape, one array behind the other, stand behind a new first axis. -/
theorem stacked_flatMap {arrays : List (NDArray β)} {s : Shape} (hall : ∀ a ∈ arrays, a.shape = s)
    (hshape : r.shape = arrays.length :: s) (hvalues : r.toList = arrays.flatMap toList) :
    Stacked arrays s 0 r := by
  refine ⟨hshape, hall, fun {i a} hi {j} hj => ?_⟩
  obtain ⟨hlt, rfl⟩ := List.getElem?_eq_some_iff.1 hi
  have hs : arrays[i].shape = s := hall _ (List.getElem_mem hlt)
  have hblocks : ∀ vs ∈ arrays.map toList, vs.length = Shape.size s := by
    refine List.forall_mem_map.2 fun a ha => ?_
    rw [size_toList, hall a ha]
  obtain ⟨-, hblock⟩ := flatten_blocks hblocks
  have hwithin : Shape.Within (i :: j) r.shape := hshape ▸ ⟨hlt, hj⟩
  have hleft := toList_offset hwithin
  have hright := toList_offset (hs.symm ▸ hj : Shape.Within j arrays[i].shape)
  rw [hvalues, hshape, List.flatMap_def, Shape.offset,
    hblock i _ arrays[i].toList (by simp [hi]) (Shape.offset_lt hj)] at hleft
  rw [hs] at hright
  exact Option.some.inj (hleft.symm.trans hright)

/-- Arrays are stacked in front when they have one shape and fit behind the new axis. -/
theorem stack_eq_ok : stack (first :: rest) = .ok r ↔
    Shape.addressable ((rest.length + 1) :: first.shape) = true ∧
      Stacked (first :: rest) first.shape 0 r := by
  have hfill : (∀ a ∈ first :: rest, a.shape = first.shape) → stack (first :: rest) =
      fill ((rest.length + 1) :: first.shape) ((first :: rest).flatMap toList) := by
    intro hall
    have hnone : (first :: rest).find? (·.shape != first.shape) = none := by
      simpa [List.find?_eq_none] using hall
    rw [stack]
    simp only [hnone]
    rfl
  have hsplit : stack (first :: rest) = .ok r → ∀ a ∈ first :: rest, a.shape = first.shape := by
    intro h
    unfold stack at h
    dsimp only at h
    split at h
    · cases h
    · rename_i hnone
      simpa [List.find?_eq_none] using hnone
  constructor
  · intro h
    have hall := hsplit h
    obtain ⟨-, haddress, hshape, hvalues⟩ := fill_eq_ok.1 ((hfill hall).symm.trans h)
    exact ⟨haddress, stacked_flatMap hall hshape hvalues⟩
  · rintro ⟨haddress, h⟩
    have hlength : ((first :: rest).flatMap toList).length =
        Shape.size ((rest.length + 1) :: first.shape) := by
      have hblocks : ∀ vs ∈ (first :: rest).map toList, vs.length = Shape.size first.shape := by
        refine List.forall_mem_map.2 fun a ha => ?_
        rw [size_toList, h.shapes a ha]
      rw [List.flatMap_def, (flatten_blocks hblocks).1, List.length_map]
      rfl
    obtain ⟨r', hshape, hvalues, -⟩ := store_eq hlength
    have hr' := fill_eq_ok.2 ⟨hlength, haddress, hshape, hvalues⟩
    rw [hfill h.shapes, hr', (stacked_flatMap h.shapes hshape hvalues).unique (Nat.zero_le _) h]

/-- The array with an axis of length 1 put in. -/
def widened (axis : Nat) (a : NDArray β) : NDArray β :=
  a.gather (a.shape.insertIdx axis 1) (·.eraseIdx axis)

theorem mapM_insertAxis {arrays widths : List (NDArray β)} :
    arrays.mapM (·.insertAxis axis) = .ok widths ↔
      (∀ a ∈ arrays, axis ≤ a.rank) ∧ widths = arrays.map (widened axis) := by
  simp only [mapM_eq_ok, insertAxis_eq_ok]
  induction arrays generalizing widths with
  | nil => simp
  | cons a arrays ih =>
    simp only [List.forall₂_cons_left_iff, ih, List.forall_mem_cons, List.map_cons]
    constructor
    · rintro ⟨_, _, ⟨ha, rfl⟩, ⟨harrays, rfl⟩, rfl⟩
      exact ⟨⟨ha, harrays⟩, rfl⟩
    · rintro ⟨⟨ha, harrays⟩, rfl⟩
      exact ⟨_, _, ⟨ha, rfl⟩, ⟨harrays, rfl⟩, rfl⟩

theorem total_widened {arrays : List (NDArray β)} (h : ∀ a ∈ arrays, axis ≤ a.rank) :
    Shape.total ((arrays.map (widened axis)).map (axisLength · axis)) = arrays.length := by
  have hunit : ∀ a ∈ arrays, ((axisLength · axis) ∘ widened axis) a = 1 :=
    fun a ha => Shape.getD_insertIdx (h a ha) 1
  rw [List.map_map, List.map_congr_left hunit, List.map_const']
  exact List.sum_replicate_nat.trans (Nat.mul_one _)

/-- Arrays with an axis of length 1 put in are joined along it when they had one shape. -/
theorem concatenate_widened (h : ∀ a ∈ first :: rest, axis ≤ a.rank) :
    concatenate ((first :: rest).map (widened axis)) axis = .ok r ↔
      (∀ a ∈ first :: rest, a.shape = first.shape) ∧
      Shape.addressable (first.shape.insertIdx axis (rest.length + 1)) = true ∧
      r = tabulate (first.shape.insertIdx axis (rest.length + 1))
        (entryAlong axis ((first :: rest).map (widened axis))) := by
  have hfirst : axis ≤ first.rank := h first List.mem_cons_self
  have hwide : axis < (widened axis first).rank := by
    rw [rank, widened, shape_gather, List.length_insertIdx_of_le_length hfirst]
    exact Nat.lt_succ_of_le hfirst
  have hshape : (widened axis first).shape.set axis
      (Shape.total (((first :: rest).map (widened axis)).map (axisLength · axis))) =
        first.shape.insertIdx axis (rest.length + 1) := by
    rw [total_widened h, widened, shape_gather, set_insertIdx hfirst, List.length_cons]
  have hjoinable : ∀ a ∈ first :: rest,
      (joinable axis (widened axis first).shape (widened axis a).shape = true ↔
        a.shape = first.shape) := by
    intro a ha
    simp only [widened, shape_gather, joinable, List.eraseIdx_insertIdx_self,
      List.length_insertIdx_of_le_length hfirst, List.length_insertIdx_of_le_length (h a ha),
      Bool.and_eq_true, beq_iff_eq]
    constructor
    · rintro ⟨-, heq⟩
      exact heq.symm
    · intro heq
      exact ⟨by rw [heq], heq.symm⟩
  have hall : (∀ a ∈ (first :: rest).map (widened axis),
      joinable axis (widened axis first).shape a.shape = true) ↔
        ∀ a ∈ first :: rest, a.shape = first.shape := by
    rw [List.forall_mem_map]
    exact forall₂_congr hjoinable
  rw [List.map_cons, concatenate_eq_ok, ← List.map_cons, and_iff_right hwide, hshape, hall]

theorem stacked_widened {arrays : List (NDArray β)} {s : Shape} (haxis : axis ≤ s.length)
    (h : ∀ a ∈ arrays, a.shape = s) :
    Stacked arrays s axis
      (tabulate (s.insertIdx axis arrays.length)
        (entryAlong axis (arrays.map (widened axis)))) := by
  have hranks : ∀ a ∈ arrays, axis ≤ a.rank := fun a ha => by rwa [rank, h a ha]
  refine ⟨rfl, h, fun {i a} hi {j} hj => ?_⟩
  obtain ⟨hlt, rfl⟩ := List.getElem?_eq_some_iff.1 hi
  have hle : axis ≤ j.length := (Shape.within_length hj).symm ▸ haxis
  have hmem := List.getElem_mem hlt
  have hunit : (widened axis arrays[i]).axisLength axis = 1 :=
    Shape.getD_insertIdx (hranks _ hmem) 1
  have hbefore : Shape.total (((arrays.take i).map (widened axis)).map (axisLength · axis)) = i := by
    rw [total_widened fun a ha => hranks a (List.mem_of_mem_take ha), List.length_take]
    exact Nat.min_eq_left (Nat.le_of_lt hlt)
  have hsplit : arrays.map (widened axis) = (arrays.take i).map (widened axis) ++
      widened axis arrays[i] :: (arrays.drop (i + 1)).map (widened axis) := by
    rw [← List.map_cons, List.getElem_cons_drop, ← List.map_append, List.take_append_drop]
  have hread := entryAlong_append hle ((arrays.take i).map (widened axis)) (widened axis arrays[i])
    ((arrays.drop (i + 1)).map (widened axis)) (q := 0) (hunit ▸ Nat.one_pos)
  rw [hbefore, Nat.add_zero i, ← hsplit] at hread
  have hj' : Shape.Within j arrays[i].shape := (h _ hmem).symm ▸ hj
  have hwide := Shape.within_insertIdx hj' (hranks _ hmem) Nat.one_pos
  rw [entry_tabulate (Shape.within_insertIdx hj haxis hlt), hread, widened, entry_gather hwide,
    List.eraseIdx_insertIdx_self]

/-- Arrays are stacked along any axis by laying them along it with length 1. -/
theorem insertAxis_concatenate (haxis : axis ≤ first.rank) :
    ((first :: rest).mapM (·.insertAxis axis) >>= (concatenate · axis)) = .ok r ↔
      Shape.addressable (first.shape.insertIdx axis (rest.length + 1)) = true ∧
        Stacked (first :: rest) first.shape axis r := by
  simp only [bind_eq_ok, mapM_insertAxis]
  constructor
  · rintro ⟨_, ⟨hranks, rfl⟩, h⟩
    obtain ⟨hall, haddress, rfl⟩ := (concatenate_widened hranks).1 h
    exact ⟨haddress, stacked_widened haxis hall⟩
  · rintro ⟨haddress, h⟩
    have hranks : ∀ a ∈ first :: rest, axis ≤ a.rank := fun a ha => by rwa [rank, h.shapes a ha]
    exact ⟨_, ⟨hranks, rfl⟩, (concatenate_widened hranks).2
      ⟨h.shapes, haddress, h.unique haxis (stacked_widened haxis h.shapes)⟩⟩

end Along

end NDArray

end SignalGraph
