import SignalGraph.Element.Builtin
import SignalGraph.Proofs.Arithmetic.Kernels
import SignalGraph.Proofs.Lowering.Streams

namespace SignalGraph

variable {α : Type} [Scalar α]

namespace Matrix

theorem row_ofFn {m n i : Nat} (f : Nat → Nat → α) (hi : i < m) :
    (ofFn m n f).row i = (List.range n).map (f i) := by
  refine List.map_congr_left fun j hj => entry_ofFn f hi (List.mem_range.1 hj)

theorem apply_length (m : Matrix α) (x : List α) : (m.apply x).length = m.nrows := by
  simp [apply, rows]

theorem apply_getElem (m : Matrix α) (x : List α) {i : Nat} (hi : i < (m.apply x).length) :
    (m.apply x)[i] = Scalar.dot (m.row i) x := by
  simp [apply, rows]

theorem entry_map (m : Matrix α) (f : α → α) {i j : Nat} (hi : i < m.nrows) (hj : j < m.ncols) :
    (m.map f).entry i j = f (m.entry i j) := by
  have hp := place_lt hi hj
  have hd : (m.map f).entry i j = ((m.data.map f)[i * m.ncols + j]?).getD default := if_pos hj
  rw [hd, entry, if_pos hj, Vector.getElem?_map, Vector.getElem?_eq_getElem hp]
  rfl

end Matrix

variable [Scalar.Exact α]

namespace Scalar

theorem dot_cons (x y : α) (xs ys : List α) : dot (x :: xs) (y :: ys) = x * y + dot xs ys := by
  rw [dot_eq_sum, dot_eq_sum, List.zipWith_cons_cons, sum_cons]

/-- A row of zeros with a number at one place picks that place out. -/
theorem dot_single (c : α) (k : Nat) (xs : List α) :
    dot ((List.range xs.length).map fun j => if k = j then c else zero) xs =
      (xs[k]?.map (c * ·)).getD zero := by
  induction xs generalizing k with
  | nil => rfl
  | cons x xs ih =>
    have hshift : (List.range (xs.length + 1)).map (fun j => if k = j then c else (zero : α)) =
        (if k = 0 then c else zero) ::
          (List.range xs.length).map fun j => if k = j + 1 then c else zero := by
      rw [List.range_succ_eq_map, List.map_cons, List.map_map]
      rfl
    rw [List.length_cons, hshift, dot_cons]
    cases k with
    | zero =>
      have hz := ih xs.length
      rw [List.getElem?_eq_none (Nat.le_refl _)] at hz
      have hcong : (List.range xs.length).map (fun j => if 0 = j + 1 then c else (zero : α)) =
          (List.range xs.length).map fun j => if xs.length = j then c else zero := by
        refine List.map_congr_left fun j hj => ?_
        have := List.mem_range.1 hj
        rw [if_neg (by omega), if_neg (by omega)]
      rw [hcong, hz]
      exact Exact.add_zero _
    | succ k =>
      have hcong : (List.range xs.length).map (fun j => if k + 1 = j + 1 then c else (zero : α)) =
          (List.range xs.length).map fun j => if k = j then c else zero := by
        refine List.map_congr_left fun j _ => ?_
        simp only [Nat.add_right_cancel_iff]
      rw [hcong, ih, if_neg (Nat.succ_ne_zero k), Exact.zero_mul, Exact.zero_add,
        List.getElem?_cons_succ]

end Scalar

namespace Matrix

open Scalar

/-- A block of the identity puts a vector behind `start` zeros. -/
theorem block_apply {total start : Nat} {x : List α} (h : start + x.length ≤ total) :
    (block total start x.length).apply x =
      List.replicate start zero ++ (x ++ List.replicate (total - start - x.length) zero) := by
  apply List.ext_getElem
  · simp [apply_length, block, ofFn]
    omega
  · intro i hi hi'
    have hlt : i < total := by simpa [apply_length, block, ofFn] using hi
    have hrow : (block total start x.length : Matrix α).row i =
        (List.range x.length).map fun j => if i = start + j then one else zero :=
      row_ofFn _ hlt
    rw [apply_getElem, hrow]
    rcases Nat.lt_or_ge i start with hs | hs
    · have hcong : (List.range x.length).map (fun j => if i = start + j then one else (zero : α)) =
          (List.range x.length).map fun j => if x.length = j then one else zero := by
        refine List.map_congr_left fun j hj => ?_
        have := List.mem_range.1 hj
        rw [if_neg (by omega), if_neg (by omega)]
      rw [hcong, dot_single, List.getElem?_eq_none (Nat.le_refl _),
        List.getElem_append_left (by simpa using hs), List.getElem_replicate]
      rfl
    · have hcong : (List.range x.length).map (fun j => if i = start + j then one else (zero : α)) =
          (List.range x.length).map fun j => if i - start = j then one else zero := by
        refine List.map_congr_left fun j _ => ?_
        have : i = start + j ↔ i - start = j := by omega
        simp only [this]
      rw [hcong, dot_single, List.getElem_append_right (by simpa using hs)]
      simp only [List.length_replicate]
      rcases Nat.lt_or_ge (i - start) x.length with hx | hx
      · rw [List.getElem?_eq_getElem hx, List.getElem_append_left hx]
        exact Exact.one_mul _
      · rw [List.getElem?_eq_none hx, List.getElem_append_right hx, List.getElem_replicate]
        rfl

theorem zipWith_add_zeros (xs : List α) :
    List.zipWith (· + ·) xs (List.replicate xs.length zero) = xs := by
  induction xs with
  | nil => rfl
  | cons x xs ih =>
    rw [List.length_cons, List.replicate_succ, List.zipWith_cons_cons, ih, Exact.add_zero]

theorem zipWith_zeros_add (xs : List α) :
    List.zipWith (· + ·) (List.replicate xs.length zero) xs = xs := by
  rw [List.zipWith_comm_of_comm Exact.add_comm]
  exact zipWith_add_zeros xs

/-- One more vector is laid behind those that are there. -/
theorem add_block {total : Nat} {done x : List α} (h : done.length + x.length ≤ total) :
    List.zipWith (· + ·) (done ++ List.replicate (total - done.length) zero)
        ((block total done.length x.length).apply x) =
      (done ++ x) ++ List.replicate (total - (done ++ x).length) zero := by
  have hsplit : List.replicate (total - done.length) (zero : α) =
      List.replicate x.length zero ++ List.replicate (total - done.length - x.length) zero := by
    rw [List.replicate_append_replicate]
    congr 1
    omega
  have hrest : total - (done ++ x).length = total - done.length - x.length := by
    rw [List.length_append]
    omega
  have hzeros := zipWith_add_zeros (List.replicate (total - done.length - x.length) (zero : α))
  rw [List.length_replicate] at hzeros
  rw [block_apply h, hsplit, hrest, List.zipWith_append (by simp), zipWith_add_zeros,
    List.zipWith_append (by simp), zipWith_zeros_add, hzeros, List.append_assoc]

theorem foldl_bundleBlocks {total : Nat} (xs : List (List α)) {done : List α}
    (h : done.length + (xs.map List.length).sum ≤ total) :
    (xs.zip (Element.bundleBlocks total done.length (xs.map List.length))).foldl
        (fun acc p => List.zipWith (· + ·) acc (p.2.apply p.1))
        (done ++ List.replicate (total - done.length) zero) =
      done ++ xs.flatten ++
        List.replicate (total - (done.length + (xs.map List.length).sum)) zero := by
  induction xs generalizing done with
  | nil => simp [Element.bundleBlocks]
  | cons x xs ih =>
    simp only [List.map_cons, List.sum_cons] at h ⊢
    have hx : done.length + x.length ≤ total := by omega
    have hrest : (done ++ x).length + (xs.map List.length).sum ≤ total := by
      rw [List.length_append]
      omega
    have hblocks := ih hrest
    rw [List.length_append] at hblocks
    rw [Element.bundleBlocks, List.zip_cons_cons, List.foldl_cons, add_block hx, List.length_append,
      hblocks, List.flatten_cons, List.append_assoc done x, Nat.add_assoc]

/-- The blocks of a bundle lay its inputs one behind the other. -/
theorem weightedSum_bundleBlocks {total : Nat} {xs : List (List α)}
    (h : total = (xs.map List.length).sum) :
    weightedSum total xs (Element.bundleBlocks total 0 (xs.map List.length)) = xs.flatten := by
  have hsum := @foldl_bundleBlocks α _ _ total xs [] (by simp [h])
  simpa [weightedSum, h] using hsum

/-- A selection matrix picks the entries of a vector at its indices, in their order. -/
theorem selection_apply {indices : List Nat} {x : List α} (h : ∀ i ∈ indices, i < x.length) :
    (selection indices x.length).apply x = indices.map fun i => x.getD i zero := by
  apply List.ext_getElem
  · simp [apply_length, selection, ofFn]
  · intro k hk hk'
    have hlt : k < indices.length := by simpa using hk'
    have hrow : (selection indices x.length : Matrix α).row k =
        (List.range x.length).map fun j => if indices[k] = j then one else zero := by
      refine (row_ofFn _ hlt).trans (List.map_congr_left fun j _ => ?_)
      simp only [List.getElem?_eq_getElem hlt, Option.some.injEq]
    have hin := h _ (List.getElem_mem hlt)
    rw [apply_getElem, hrow, dot_single, List.getElem_map, List.getD_eq_getElem?_getD,
      List.getElem?_eq_getElem hin]
    exact Exact.one_mul _

/-- A sum of vectors, component by component. -/
theorem foldl_components {size : Nat} {ps : List (List α × Matrix α)} {ys : List (Nat → α)}
    (h : List.Forall₂ (fun p y => p.2.apply p.1 = (List.range size).map y) ps ys) (a : Nat → α) :
    ps.foldl (fun acc p => List.zipWith (· + ·) acc (p.2.apply p.1)) ((List.range size).map a) =
      (List.range size).map fun i => a i + Scalar.sum (ys.map (· i)) := by
  induction h generalizing a with
  | nil => simp only [List.foldl_nil, List.map_nil, sum_nil, Exact.add_zero]
  | @cons p y ps ys hp _ ih =>
    have hadd : List.zipWith (· + ·) ((List.range size).map a) ((List.range size).map y) =
        (List.range size).map fun i => a i + y i := by
      rw [List.zipWith_map, List.zipWith_self]
    rw [List.foldl_cons, hp, hadd, ih]
    refine List.map_congr_left fun i _ => ?_
    rw [List.map_cons, sum_cons, Exact.add_assoc]

theorem weightedSum_components {size : Nat} {xs : List (List α)} {ms : List (Matrix α)}
    {ys : List (Nat → α)}
    (h : List.Forall₂ (fun p y => p.2.apply p.1 = (List.range size).map y) (xs.zip ms) ys) :
    weightedSum size xs ms = (List.range size).map fun i => Scalar.sum (ys.map (· i)) := by
  have hzeros : List.replicate size (zero : α) = (List.range size).map fun _ => zero := by simp
  rw [weightedSum, hzeros, foldl_components h]
  exact List.map_congr_left fun i _ => Exact.zero_add _

/-- A column of equal entries puts one value, times the entry, everywhere. -/
theorem constantColumn_apply (size : Nat) (c x : α) :
    (constantColumn size c).apply [x] = (List.range size).map fun _ => c * x := by
  refine List.ext_getElem (by simp [apply_length, constantColumn, ofFn]) fun i hi hi' => ?_
  have hlt : i < size := by simpa using hi'
  have hrow : (constantColumn size c).row i = [c] := row_ofFn _ hlt
  rw [apply_getElem, hrow, List.getElem_map, dot_cons]
  exact Exact.add_zero _

/-- A multiple of the identity. -/
theorem scale_identity_apply (c : α) (x : List α) :
    ((identity x.length).scale c).apply x =
      (List.range x.length).map fun i => c * x.getD i zero := by
  refine List.ext_getElem (by simp [apply_length, scale, map, identity, ofFn]) fun i hi hi' => ?_
  have hlt : i < x.length := by simpa using hi'
  have hrow : ((identity x.length).scale c).row i =
      (List.range x.length).map fun j => if i = j then c else zero := by
    refine List.map_congr_left fun j hj => ?_
    have hj : j < x.length := List.mem_range.1 hj
    have hentry : ((identity x.length).scale c).entry i j = (identity x.length).entry i j * c :=
      entry_map (identity x.length) (· * c) hlt hj
    rw [hentry, identity, entry_ofFn _ hlt hj]
    split
    · exact Exact.one_mul c
    · exact Exact.zero_mul c
  rw [apply_getElem, hrow, dot_single, List.getElem_map, List.getElem_range,
    List.getD_eq_getElem?_getD, List.getElem?_eq_getElem hlt]
  rfl

end Matrix

end SignalGraph
