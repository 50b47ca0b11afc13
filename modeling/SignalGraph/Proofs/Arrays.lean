import Mathlib.Data.List.Basic
import SignalGraph.NDArray.Views
import SignalGraph.Proofs.Computation

namespace SignalGraph

/-- Blocks of the same length one behind the other. -/
theorem flatten_blocks {α : Type} {xss : List (List α)} {n : Nat} (h : ∀ xs ∈ xss, xs.length = n) :
    xss.flatten.length = xss.length * n ∧
      ∀ (k j : Nat) (xs : List α), xss[k]? = some xs → j < n → xss.flatten[k * n + j]? = xs[j]? := by
  induction xss with
  | nil => exact ⟨by simp, fun k j xs hk => by simp at hk⟩
  | cons ys xss ih =>
    have hys := h ys List.mem_cons_self
    obtain ⟨hlength, hblock⟩ := ih fun xs hxs => h xs (List.mem_cons_of_mem _ hxs)
    refine ⟨?_, ?_⟩
    · rw [List.flatten_cons, List.length_append, hlength, hys, List.length_cons, Nat.succ_mul,
        Nat.add_comm]
    · intro k j xs hk hj
      rw [List.flatten_cons]
      cases k with
      | zero =>
        cases hk
        rw [Nat.zero_mul, Nat.zero_add, List.getElem?_append_left (hys.symm ▸ hj)]
      | succ k =>
        have hplace : (k + 1) * n + j - ys.length = k * n + j := by
          rw [hys, Nat.succ_mul]
          omega
        rw [List.getElem?_append_right (by rw [hys, Nat.succ_mul]; omega), hplace]
        exact hblock k j xs hk hj

namespace Shape

theorem within_length {i : List Nat} {s : Shape} (h : Within i s) : i.length = s.length := by
  induction i generalizing s with
  | nil =>
    cases s with
    | nil => rfl
    | cons n s => exact absurd h (by simp [Within])
  | cons k i ih =>
    cases s with
    | nil => exact absurd h (by simp [Within])
    | cons n s => rw [List.length_cons, List.length_cons, ih h.2]

theorem within_drop {i : List Nat} {s : Shape} (h : Within i s) (k : Nat) :
    Within (i.drop k) (s.drop k) := by
  induction k generalizing i s with
  | zero => exact h
  | succ k ih =>
    cases i with
    | nil =>
      cases s with
      | nil => exact h
      | cons n s => exact absurd h (by simp [Within])
    | cons j i =>
      cases s with
      | nil => exact absurd h (by simp [Within])
      | cons n s => exact ih h.2

theorem size_append (s t : Shape) : size (s ++ t) = size s * size t := by
  induction s with
  | nil => simp [size]
  | cons n s ih => rw [List.cons_append, size, size, ih, Nat.mul_assoc]

theorem within_append {i j : List Nat} {s t : Shape} (hi : Within i s) (hj : Within j t) :
    Within (i ++ j) (s ++ t) := by
  induction s generalizing i with
  | nil =>
    cases i with
    | nil => exact hj
    | cons k i => exact absurd hi (by simp [Within])
  | cons n s ih =>
    cases i with
    | nil => exact absurd hi (by simp [Within])
    | cons k i => exact ⟨hi.1, ih hi.2⟩

theorem offset_append {i j : List Nat} {s t : Shape} (hi : Within i s) :
    offset (s ++ t) (i ++ j) = offset s i * size t + offset t j := by
  induction s generalizing i with
  | nil =>
    cases i with
    | nil => simp [offset]
    | cons k i => exact absurd hi (by simp [Within])
  | cons n s ih =>
    cases i with
    | nil => exact absurd hi (by simp [Within])
    | cons k i =>
      simp only [List.cons_append, offset, ih hi.2, size_append]
      rw [Nat.add_mul, Nat.mul_assoc, Nat.add_assoc]

/-- Stretching to the shape that an array has moves nothing. -/
theorem restrict_self {i : List Nat} {s : Shape} (h : Within i s) : restrict s i = i := by
  rw [restrict, within_length h, Nat.sub_self, List.drop_zero]
  induction s generalizing i with
  | nil =>
    cases i with
    | nil => rfl
    | cons k i => exact absurd h (by simp [Within])
  | cons n s ih =>
    cases i with
    | nil => exact absurd h (by simp [Within])
    | cons k i =>
      rw [List.zipWith_cons_cons, ih h.2]
      by_cases hn : n = 1
      · have hk : k < n := h.1
        rw [if_pos hn, show k = 0 by omega]
      · rw [if_neg hn]

/-- Zero on axes of length 1 and the same index on the others. -/
theorem within_zipWith {s t : Shape} {i : List Nat} (hl : s.length = t.length)
    (h : (List.zip s t).all fun p => p.1 == p.2 || p.1 == 1) (hi : Within i t) :
    Within (List.zipWith (fun n k => if n = 1 then 0 else k) s i) s := by
  induction s generalizing t i with
  | nil => trivial
  | cons n s ih =>
    cases t with
    | nil => cases hl
    | cons m t =>
      cases i with
      | nil => exact absurd hi (by simp [Within])
      | cons k i =>
        simp only [List.zip_cons_cons, List.all_cons, Bool.and_eq_true, Bool.or_eq_true,
          beq_iff_eq] at h
        refine ⟨?_, ih (Nat.succ.inj hl) h.2 hi.2⟩
        by_cases hn : n = 1
        · simp [hn]
        · simp only [hn, if_false]
          rw [h.1.resolve_right hn]
          exact hi.1

/-- An index of a stretched array leads to a position of its source. -/
theorem within_restrict {s t : Shape} {i : List Nat} (h : spreads s t = true) (hi : Within i t) :
    Within (restrict s i) s := by
  simp only [spreads, Bool.and_eq_true, decide_eq_true_eq] at h
  obtain ⟨⟨-, hle⟩, hall⟩ := h
  rw [restrict, within_length hi]
  refine within_zipWith ?_ hall (within_drop hi _)
  rw [List.length_drop]
  omega

/-- The indices of a shape in row-major order. -/
def indices : Shape → List (List Nat)
  | [] => [[]]
  | n :: s => (List.range n).flatMap fun k => (indices s).map (k :: ·)

/-- Counting in blocks. -/
theorem range_mul {β : Type} (f : Nat → β) (n m : Nat) :
    (List.range (n * m)).map f =
      (List.range n).flatMap fun k => (List.range m).map fun j => f (k * m + j) := by
  induction n with
  | zero => simp
  | succ n ih =>
    rw [Nat.succ_mul, List.range_add, List.map_append, ih, List.range_succ, List.flatMap_append,
      List.map_map]
    simp [Function.comp_def]

theorem indices_eq (s : Shape) : indices s = (List.range (size s)).map (unravel s) := by
  induction s with
  | nil => rfl
  | cons n s ih =>
    rw [indices, size, range_mul, ih]
    refine congrArg List.flatten (List.map_congr_left fun k hk => ?_)
    rw [List.map_map]
    refine List.map_congr_left fun j hj => ?_
    have hj : j < size s := List.mem_range.1 hj
    have hdiv : (k * size s + j) / size s = k := by
      rw [Nat.add_comm, Nat.add_mul_div_right _ _ (Nat.zero_lt_of_lt hj), Nat.div_eq_of_lt hj,
        Nat.zero_add]
    have hmod : (k * size s + j) % size s = j := by
      rw [Nat.add_comm, Nat.add_mul_mod_self_right, Nat.mod_eq_of_lt hj]
    rw [Function.comp_apply, unravel, hdiv, hmod]

theorem mem_indices {s : Shape} {i : List Nat} : i ∈ indices s ↔ Within i s := by
  rw [indices_eq, List.mem_map]
  constructor
  · rintro ⟨p, hp, rfl⟩
    exact within_unravel (List.mem_range.1 hp)
  · intro h
    exact ⟨offset s i, List.mem_range.2 (offset_lt h), unravel_offset h⟩

end Shape

namespace NDArray

variable {β γ : Type}

theorem size_toList (a : NDArray β) : a.toList.length = Shape.size a.shape := by
  simp [toList]

theorem get?_eq_toList {a : NDArray β} {i : List Nat} (h : Shape.Within i a.shape) :
    a.get? i = a.toList[Shape.offset a.shape i]? := by
  rw [get?_of_within h, toList, Vector.getElem?_toList]

theorem entry_tabulate [Inhabited β] {s : Shape} {f : List Nat → β} {i : List Nat}
    (h : Shape.Within i s) : (tabulate s f).entry i = f i := by
  rw [entry, get?_tabulate h]
  rfl

theorem entry_map [Inhabited β] [Inhabited γ] {a : NDArray β} {f : β → γ} {i : List Nat}
    (h : Shape.Within i a.shape) : (a.map f).entry i = f (a.entry i) := by
  have hp : Shape.offset a.shape i < Shape.size a.shape := Shape.offset_lt h
  have hm : (a.map f).get? i = (a.data.map f)[Shape.offset a.shape i]? := get?_of_within h
  rw [entry, entry, hm, get?_of_within h, Vector.getElem?_map, Vector.getElem?_eq_getElem hp]
  rfl

theorem get?_eq_entry [Inhabited β] {a : NDArray β} {i : List Nat} (h : Shape.Within i a.shape) :
    a.get? i = some (a.entry i) := by
  have hp : Shape.offset a.shape i < Shape.size a.shape := Shape.offset_lt h
  rw [entry, get?_of_within h, Vector.getElem?_eq_getElem hp]
  rfl

theorem toList_offset [Inhabited β] {a : NDArray β} {i : List Nat} (h : Shape.Within i a.shape) :
    a.toList[Shape.offset a.shape i]? = some (a.entry i) := by
  rw [← get?_eq_toList h, get?_eq_entry h]

/-- The values are those at the positions, in row-major order. -/
theorem toList_eq_map [Inhabited β] (a : NDArray β) :
    a.toList = (List.range (Shape.size a.shape)).map fun p => a.entry (Shape.unravel a.shape p) := by
  apply List.ext_getElem
  · simp [size_toList]
  · intro p hp hp'
    have hlt : p < Shape.size a.shape := by rwa [size_toList] at hp
    have hw := Shape.within_unravel hlt
    have he := get?_eq_toList hw
    rw [get?_eq_entry hw, Shape.offset_unravel hlt, List.getElem?_eq_getElem hp] at he
    simpa using (Option.some.inj he).symm

/-- The values stand at the indices, in row-major order. -/
theorem map_get?_indices (a : NDArray β) :
    (Shape.indices a.shape).map a.get? = a.toList.map some := by
  rw [Shape.indices_eq, List.map_map]
  refine List.ext_getElem (by simp [size_toList]) fun p h h' => ?_
  have hp : p < Shape.size a.shape := by simpa using h
  have hl : p < a.toList.length := by rwa [size_toList]
  simp only [List.getElem_map, List.getElem_range, Function.comp_apply]
  rw [get?_eq_toList (Shape.within_unravel hp), Shape.offset_unravel hp, List.getElem?_eq_getElem hl]

theorem ext_toList {a b : NDArray β} (hs : a.shape = b.shape) (h : a.toList = b.toList) : a = b := by
  obtain ⟨s, data⟩ := a
  obtain ⟨t, data'⟩ := b
  cases hs
  exact congrArg (NDArray.mk s) (Vector.toList_inj.1 h)

theorem toList_eq_indices [Inhabited β] (a : NDArray β) :
    a.toList = (Shape.indices a.shape).map a.entry := by
  rw [toList_eq_map, Shape.indices_eq, List.map_map]
  rfl

/-- Arrays are told apart by their shapes and what stands at each index. -/
theorem ext_entry [Inhabited β] {a b : NDArray β} (hs : a.shape = b.shape)
    (h : ∀ i, Shape.Within i a.shape → a.entry i = b.entry i) : a = b := by
  refine ext_toList hs ?_
  rw [toList_eq_indices, toList_eq_indices, ← hs]
  exact List.map_congr_left fun i hi => h i (Shape.mem_indices.1 hi)

/-- A value of the array stands at some index. -/
theorem mem_toList [Inhabited β] {a : NDArray β} {b : β} :
    b ∈ a.toList ↔ ∃ i, Shape.Within i a.shape ∧ a.entry i = b := by
  rw [toList_eq_indices, List.mem_map]
  simp only [Shape.mem_indices]

/-- Arrays of one shape that are related position by position. -/
theorem forall₂_toList [Inhabited β] [Inhabited γ] {R : β → γ → Prop} {a : NDArray β} {b : NDArray γ}
    (hs : a.shape = b.shape) (h : ∀ i, Shape.Within i b.shape → R (a.entry i) (b.entry i)) :
    List.Forall₂ R a.toList b.toList := by
  rw [toList_eq_map a, toList_eq_map b, hs, List.forall₂_map_left_iff, List.forall₂_map_right_iff,
    List.forall₂_same]
  intro p hp
  exact h _ (Shape.within_unravel (List.mem_range.1 hp))

/-- A stretched array has the values of its source. -/
theorem spread?_eq_some [Inhabited β] {a b : NDArray β} {s : Shape} :
    a.spread? s = some b ↔
      Shape.spreads a.shape s = true ∧ b = a.gather s (Shape.restrict a.shape) := by
  unfold spread?
  split
  · rename_i h
    simp [h, eq_comm]
  · rename_i h
    simp [h]

theorem entry_gather [Inhabited β] {a : NDArray β} {s : Shape} {f : List Nat → List Nat}
    {i : List Nat} (h : Shape.Within i s) : (a.gather s f).entry i = a.entry (f i) :=
  entry_tabulate h

@[simp] theorem shape_gather [Inhabited β] (a : NDArray β) (s : Shape)
    (f : List Nat → List Nat) : (a.gather s f).shape = s :=
  rfl

/-- What an array is gathered with matters at its own indices only. -/
theorem gather_congr [Inhabited β] {a : NDArray β} {s : Shape} {f f' : List Nat → List Nat}
    (h : ∀ i, Shape.Within i s → f i = f' i) : a.gather s f = a.gather s f' := by
  refine ext_entry rfl fun i hi => ?_
  have hi : Shape.Within i s := hi
  rw [entry_gather hi, entry_gather hi, h i hi]

theorem get?_eq_some {a : NDArray β} {i : List Nat} {b : β} :
    a.get? i = some b ↔ Shape.Within i a.shape ∧ a.toList[Shape.offset a.shape i]? = some b := by
  by_cases h : Shape.Within i a.shape
  · rw [get?_eq_toList h, and_iff_right h]
  · simp [get?, h]

theorem get?_isSome {a : NDArray β} {i : List Nat} (h : Shape.Within i a.shape) :
    ∃ b, a.get? i = some b := by
  have hlt : Shape.offset a.shape i < a.toList.length := a.size_toList.symm ▸ Shape.offset_lt h
  exact ⟨_, get?_eq_some.2 ⟨h, List.getElem?_eq_getElem hlt⟩⟩

/-- Arrays of one shape whose values are related in order are related position by position. -/
theorem forall₂_get? {R : β → γ → Prop} {a : NDArray β} {b : NDArray γ} (hs : a.shape = b.shape)
    (h : List.Forall₂ R a.toList b.toList) {i : List Nat} {y : γ} (hy : b.get? i = some y) :
    ∃ x, a.get? i = some x ∧ R x y := by
  obtain ⟨hi, hb⟩ := get?_eq_some.1 hy
  obtain ⟨x, hx⟩ := get?_isSome (hs.symm ▸ hi : Shape.Within i a.shape)
  have ha := (get?_eq_some.1 hx).2
  rw [hs] at ha
  exact ⟨x, hx, forall₂_getElem? h ha hb⟩

/-- Values that fit a shape are stored unless it has too many places. -/
theorem store_eq {s : Shape} {values : List β} (hl : values.length = Shape.size s) :
    ∃ a, a.shape = s ∧ a.toList = values ∧ store s values =
      if Shape.addressable s then .ok a else .error (.invalid (.storage .overflow)) := by
  refine ⟨⟨s, ⟨values.toArray, by simpa using hl⟩⟩, rfl, rfl, ?_⟩
  rw [store, dif_pos hl]
  cases Shape.addressable s <;> rfl

theorem toSingle?_eq_some {a : NDArray β} {b : β} : a.toSingle? = some b ↔ a = single b := by
  obtain ⟨s, data⟩ := a
  constructor
  · intro h
    cases s with
    | cons n s => cases h
    | nil =>
      have hb : data.toList.head? = some b := h
      have hd : data = #v[b] := by
        refine Vector.ext fun i hi => ?_
        obtain rfl : i = 0 := Nat.lt_one_iff.1 hi
        rw [List.head?_eq_getElem?, Vector.getElem?_toList, Vector.getElem?_eq_getElem hi] at hb
        exact Option.some.inj hb
      rw [hd]
      rfl
  · intro h
    cases h
    rfl

theorem exists_single {a : NDArray β} (h : a.rank = 0) : ∃ b, a = single b := by
  have hs : a.shape = [] := List.length_eq_zero_iff.1 h
  have hlength : a.toList.length = 1 := by rw [size_toList, hs, Shape.size]
  obtain ⟨b, hb⟩ := List.length_eq_one_iff.1 hlength
  exact ⟨b, ext_toList hs hb⟩

theorem map_single (f : β → γ) (b : β) : (single b).map f = single (f b) := by
  have hd : #v[b].map f = #v[f b] := by simp
  exact congrArg (NDArray.mk []) hd

variable {m : Type → Type} [Monad m] [LawfulMonad m]

theorem ofFnM_eq_mapM {n : Nat} (f : Nat → m β) :
    List.ofFnM (fun p : Fin n => f p) = (List.range n).mapM f := by
  induction n with
  | zero => simp
  | succ n ih =>
    rw [List.ofFnM_succ_last, List.range_succ, List.mapM_append]
    simp only [Fin.val_last, Fin.val_castSucc, ih, List.mapM_cons, List.mapM_nil, bind_assoc,
      pure_bind]

theorem toList_tabulateM (s : Shape) (f : List Nat → m β) :
    toList <$> tabulateM s f =
      (List.range (Shape.size s)).mapM fun p => f (Shape.unravel s p) := by
  rw [tabulateM, ← ofFnM_eq_mapM fun p => f (Shape.unravel s p), ← Vector.toList_ofFnM]
  simp only [Functor.map_map]
  rfl

theorem toList_mapM (f : β → m γ) (a : NDArray β) : toList <$> a.mapM f = a.toList.mapM f := by
  have h : Array.toList <$> (Vector.toArray <$> a.data.mapM f) = a.toList.mapM f := by
    rw [Vector.toArray_mapM, Array.toList_mapM]
    rfl
  rw [mapM, Functor.map_map, ← h, Functor.map_map]
  rfl

/-- Computations that all succeed, on an array. -/
theorem mapM_ok {ε : Type} {f : β → Except ε γ} {a : NDArray β} {ys : List γ}
    (h : List.Forall₂ (fun x y => f x = .ok y) a.toList ys) :
    ∃ b, a.mapM f = .ok b ∧ b.shape = a.shape ∧ b.toList = ys := by
  have hlist := mapM_eq_ok.2 h
  rw [← toList_mapM] at hlist
  obtain ⟨b, hb, hys⟩ := map_eq_ok.1 hlist
  obtain ⟨data, -, hdata⟩ := map_eq_ok.1 hb
  exact ⟨b, hb, by rw [← hdata], hys⟩

end NDArray

end SignalGraph
