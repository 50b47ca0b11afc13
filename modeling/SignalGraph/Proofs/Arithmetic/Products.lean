import Mathlib.Algebra.BigOperators.Ring.Finset
import SignalGraph.Proofs.Arithmetic.Blocks

namespace SignalGraph

variable {α : Type} [Scalar α]

namespace Matrix

/-- A number added to every diagonal entry. -/
def addDiagonal (a : Matrix α) (c : α) : Matrix α :=
  ofFn a.nrows a.ncols fun i j => if i = j then a.entry i j + c else a.entry i j

/-- The matrix of normal equations, with a number added to its diagonal. -/
def normal (a : Matrix α) (c : α) : Matrix α := (a.transpose.mul a).addDiagonal c

theorem ext_entry {a b : Matrix α} (hrows : a.nrows = b.nrows) (hcols : a.ncols = b.ncols)
    (h : ∀ i < a.nrows, ∀ j < a.ncols, a.entry i j = b.entry i j) : a = b := by
  obtain ⟨m, n, data⟩ := a
  obtain ⟨m', n', data'⟩ := b
  obtain rfl : m = m' := hrows
  obtain rfl : n = n' := hcols
  have hdata : data = data' := by
    apply Vector.ext
    intro p hp
    have hn : 0 < n := Nat.pos_of_mul_pos_left (Nat.zero_lt_of_lt hp)
    have hj : p % n < n := Nat.mod_lt p hn
    have he := h (p / n) (Nat.div_lt_of_lt_mul (Nat.mul_comm m n ▸ hp)) (p % n) hj
    simp only [entry, if_pos hj, Nat.div_add_mod', Vector.getElem?_eq_getElem hp,
      Option.getD_some] at he
    exact he
  rw [hdata]

theorem mem_data {a : Matrix α} {x : α} :
    x ∈ a.data.toList ↔ ∃ i < a.nrows, ∃ j < a.ncols, a.entry i j = x := by
  rw [Vector.mem_toList_iff, Vector.mem_iff_getElem]
  constructor
  · intro h
    obtain ⟨p, hp, rfl⟩ := h
    have hcols : 0 < a.ncols := Nat.pos_of_mul_pos_left (Nat.zero_lt_of_lt hp)
    have hi : p / a.ncols < a.nrows := Nat.div_lt_of_lt_mul (Nat.mul_comm a.nrows a.ncols ▸ hp)
    have hj : p % a.ncols < a.ncols := Nat.mod_lt p hcols
    refine ⟨p / a.ncols, hi, p % a.ncols, hj, ?_⟩
    rw [entry, if_pos hj, Nat.div_add_mod', Vector.getElem?_eq_getElem hp, Option.getD_some]
  · intro h
    obtain ⟨i, hi, j, hj, rfl⟩ := h
    have hp := place_lt hi hj
    exact ⟨_, hp, by rw [entry, if_pos hj, Vector.getElem?_eq_getElem hp, Option.getD_some]⟩

@[simp] theorem length_rows (a : Matrix α) : a.rows.length = a.nrows := by simp [rows]

theorem getElem?_rows (a : Matrix α) {i : Nat} (hi : i < a.nrows) :
    a.rows[i]? = some (a.row i) := by
  rw [rows, List.getElem?_map, List.getElem?_range hi, Option.map_some]

@[simp] theorem length_column (a : Matrix α) (j : Nat) : (a.column j).length = a.nrows := by
  simp [column]

theorem getElem?_column (a : Matrix α) (j : Nat) {i : Nat} (hi : i < a.nrows) :
    (a.column j)[i]? = some (a.entry i j) := by
  rw [column, List.getElem?_map, List.getElem?_range hi, Option.map_some]

theorem getElem?_row (a : Matrix α) (i : Nat) {j : Nat} (hj : j < a.ncols) :
    (a.row i)[j]? = some (a.entry i j) := by
  rw [row, List.getElem?_map, List.getElem?_range hj, Option.map_some]

theorem ofFn_congr {m n : Nat} {f g : Nat → Nat → α} (h : ∀ i < m, ∀ j < n, f i j = g i j) :
    ofFn m n f = ofFn m n g := by
  refine ext_entry rfl rfl ?_
  intro i hi j hj
  change i < m at hi
  change j < n at hj
  rw [entry_ofFn f hi hj, entry_ofFn g hi hj, h i hi j hj]

/-- A matrix that is tabulated from its columns. -/
theorem column_ofFn {n m k : Nat} (f : Nat → List α) (hk : k < m) (hl : (f k).length = n) :
    (ofFn n m fun i k => (f k)[i]?.getD Scalar.zero).column k = f k := by
  apply List.ext_getElem
  · rw [length_column, hl]
    rfl
  · intro i hi hi'
    have hn : i < n := hl ▸ hi'
    simp only [column, List.getElem_map, List.getElem_range]
    rw [entry_ofFn _ hn hk, List.getElem?_eq_getElem hi', Option.getD_some]

theorem entry_transpose (a : Matrix α) {i j : Nat} (hi : i < a.ncols) (hj : j < a.nrows) :
    a.transpose.entry i j = a.entry j i := entry_ofFn _ hi hj

theorem row_transpose (a : Matrix α) {i : Nat} (hi : i < a.ncols) :
    a.transpose.row i = a.column i := by
  refine (List.map_congr_left fun j hj => ?_).trans rfl
  exact a.entry_transpose hi (List.mem_range.1 hj)

theorem column_transpose (a : Matrix α) {j : Nat} (hj : j < a.nrows) :
    a.transpose.column j = a.row j := by
  refine (List.map_congr_left fun i hi => ?_).trans rfl
  exact a.entry_transpose (List.mem_range.1 hi) hj

/-- A matrix that is its transpose is square. -/
theorem square_of_symmetric {a : Matrix α} (h : a.transpose = a) : a.ncols = a.nrows :=
  congrArg nrows h

theorem entry_symmetric {a : Matrix α} (h : a.transpose = a) :
    ∀ i < a.nrows, ∀ j < a.nrows, a.entry i j = a.entry j i := by
  intro i hi j hj
  have hc := square_of_symmetric h
  rw [← a.entry_transpose (hc ▸ hj) hi, h]

theorem entry_ofLists {m n : Nat} {rows : List (List α)} {i j : Nat} {xs : List α} {x : α}
    (hi : i < m) (hj : j < n) (hxs : rows[i]? = some xs) (hx : xs[j]? = some x) :
    (ofLists m n rows).entry i j = x := by
  rw [ofLists, entry_ofFn _ hi hj]
  simp [hxs, hx]

/-- An entry of a product. -/
theorem entry_mul_dot (a b : Matrix α) {i k : Nat} (hi : i < a.nrows) (hk : k < b.ncols) :
    (a.mul b).entry i k = Scalar.dot (a.row i) (b.column k) := by
  let columns := (List.range b.ncols).map b.column
  have hrow : (a.rows.map fun r => columns.map (Scalar.dot r))[i]? =
      some (columns.map (Scalar.dot (a.row i))) := by
    rw [List.getElem?_map, a.getElem?_rows hi, Option.map_some]
  have hentry : (columns.map (Scalar.dot (a.row i)))[k]? =
      some (Scalar.dot (a.row i) (b.column k)) := by
    rw [List.getElem?_map, List.getElem?_map, List.getElem?_range hk, Option.map_some,
      Option.map_some]
  exact entry_ofLists hi hk hrow hentry

theorem entry_zipRows {n : Nat} (f : α → α → α) (a : Matrix α) (v : Vector α n) {i j : Nat}
    (hi : i < a.nrows) (hj : j < a.ncols) (hv : j < n) :
    (a.zipRows f v).entry i j = f (a.entry i j) v[j] := by
  rw [zipRows, entry_ofFn _ hi hj, Vector.getElem?_eq_getElem hv, Option.getD_some]

theorem rows_map (f : α → α) (a : Matrix α) : (a.map f).rows = a.rows.map (·.map f) := by
  rw [rows, rows, List.map_map]
  apply List.map_congr_left
  intro i hi
  rw [Function.comp, row, row, List.map_map]
  apply List.map_congr_left
  intro j hj
  exact a.entry_map f (List.mem_range.1 hi) (List.mem_range.1 hj)

theorem entry_normal (a : Matrix α) (c : α) {i j : Nat} (hi : i < a.ncols) (hj : j < a.ncols) :
    (a.normal c).entry i j =
      if i = j then Scalar.dot (a.column i) (a.column j) + c
      else Scalar.dot (a.column i) (a.column j) := by
  have hmul : (a.transpose.mul a).entry i j = Scalar.dot (a.column i) (a.column j) := by
    rw [entry_mul_dot _ _ hi hj, a.row_transpose hi]
  rw [← hmul]
  exact entry_ofFn _ hi hj

end Matrix

variable [Scalar.Exact α]

attribute [local instance] Scalar.Exact.commRing

namespace Scalar

theorem subProducts_eq (a : α) (xs ys : List α) : subProducts a xs ys = a - dot xs ys := by
  induction xs generalizing a ys with
  | nil => exact (sub_zero a).symm
  | cons x xs ih =>
    cases ys with
    | nil => exact (sub_zero a).symm
    | cons y ys => rw [subProducts, ih, dot_cons, sub_sub]

theorem dot_comm (xs ys : List α) : dot xs ys = dot ys xs := by
  induction xs generalizing ys with
  | nil => cases ys <;> rfl
  | cons x xs ih =>
    cases ys with
    | nil => rfl
    | cons y ys => rw [dot_cons, dot_cons, ih, Exact.mul_comm]

theorem dot_append {xs ys : List α} (h : xs.length = ys.length) (xs' ys' : List α) :
    dot (xs ++ xs') (ys ++ ys') = dot xs ys + dot xs' ys' := by
  induction xs generalizing ys with
  | nil =>
    obtain rfl := List.length_eq_zero_iff.1 h.symm
    exact (Exact.zero_add _).symm
  | cons x xs ih =>
    cases ys with
    | nil => cases h
    | cons y ys =>
      rw [List.cons_append, List.cons_append, dot_cons, ih (Nat.succ.inj h), dot_cons,
        Exact.add_assoc]

/-- Entries beyond the shorter list do not count. -/
theorem dot_append_of_le {xs ys : List α} (h : xs.length ≤ ys.length) (ys' : List α) :
    dot xs (ys ++ ys') = dot xs ys := by
  induction xs generalizing ys with
  | nil => cases ys <;> cases ys' <;> rfl
  | cons x xs ih =>
    cases ys with
    | nil => cases h
    | cons y ys =>
      rw [List.cons_append, dot_cons, dot_cons, ih (Nat.le_of_succ_le_succ h)]

theorem dot_eq_range {xs : List α} {n : Nat} (h : xs.length ≤ n) (ys : List α) :
    dot xs ys = ∑ k ∈ Finset.range n, xs[k]?.getD zero * ys[k]?.getD zero := by
  induction n generalizing xs ys with
  | zero =>
    obtain rfl := List.length_eq_zero_iff.1 (Nat.le_zero.1 h)
    rfl
  | succ n ih =>
    cases xs with
    | nil =>
      refine (Finset.sum_eq_zero fun k _ => ?_).symm
      exact Exact.zero_mul _
    | cons x xs =>
      rw [Finset.sum_range_succ', add_comm]
      cases ys with
      | nil =>
        have hz : ∀ y : α, y * zero = 0 := Exact.mul_zero
        simp only [List.getElem?_nil, Option.getD_none, hz, Finset.sum_const_zero, add_zero]
        rfl
      | cons y ys =>
        rw [dot_cons]
        exact congrArg (x * y + ·) (ih (Nat.le_of_succ_le_succ h) ys)

end Scalar

theorem Matrix.dot_row (a : Matrix α) (i : Nat) (xs : List α) :
    Scalar.dot (a.row i) xs =
      ∑ j ∈ Finset.range a.ncols, a.entry i j * xs[j]?.getD Scalar.zero := by
  have hlen : (a.row i).length ≤ a.ncols := by simp [Matrix.row]
  rw [Scalar.dot_eq_range hlen]
  apply Finset.sum_congr rfl
  intro j hj
  rw [a.getElem?_row i (Finset.mem_range.1 hj), Option.getD_some]

theorem Matrix.entry_mul (a b : Matrix α) (h : a.ncols = b.nrows) {i k : Nat} (hi : i < a.nrows)
    (hk : k < b.ncols) :
    (a.mul b).entry i k = ∑ j ∈ Finset.range a.ncols, a.entry i j * b.entry j k := by
  rw [entry_mul_dot a b hi hk, dot_row]
  apply Finset.sum_congr rfl
  intro j hj
  rw [b.getElem?_column k (h ▸ Finset.mem_range.1 hj), Option.getD_some]

end SignalGraph
