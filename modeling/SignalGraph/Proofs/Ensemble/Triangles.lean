import Mathlib.Algebra.BigOperators.Ring.Finset
import SignalGraph.Ensemble.Ridge
import SignalGraph.Proofs.Arithmetic.Products

namespace SignalGraph.Ridge

open Scalar

variable {α : Type} [Scalar α]

/-- An entry of a list of rows, zero outside of them. -/
def coefficient (rows : List (List α)) (i k : Nat) : α := ((rows[i]?.getD [])[k]?).getD zero

/-- Rows of a lower triangle from row `k` on, each up to its positive entry on the diagonal. -/
def Staircase : Nat → List (List α) → Prop
  | _, [] => True
  | k, r :: rows =>
    (∃ front d, r = front ++ [d] ∧ front.length = k ∧ less zero d = true) ∧ Staircase (k + 1) rows

theorem Staircase.append {k : Nat} {rows : List (List α)} (h : Staircase k rows) {front : List α}
    {d : α} (hl : front.length = k + rows.length) (hd : less zero d = true) :
    Staircase k (rows ++ [front ++ [d]]) := by
  induction rows generalizing k with
  | nil => exact ⟨⟨front, d, rfl, hl, hd⟩, trivial⟩
  | cons r rows ih =>
    rw [List.length_cons] at hl
    exact ⟨h.1, ih h.2 (by omega)⟩

theorem Staircase.tail {k : Nat} {rows : List (List α)} (h : Staircase (k + 1) rows) :
    Staircase k (rows.map List.tail) := by
  induction rows generalizing k with
  | nil => trivial
  | cons r rows ih =>
    obtain ⟨⟨front, d, rfl, hl, hd⟩, hrest⟩ := h
    cases front with
    | nil => cases hl
    | cons x front => exact ⟨⟨front, d, rfl, Nat.succ.inj hl, hd⟩, ih hrest⟩

theorem Staircase.getElem? {k : Nat} {rows : List (List α)} (h : Staircase k rows) {i : Nat}
    {r : List α} (hr : rows[i]? = some r) :
    ∃ front d, r = front ++ [d] ∧ front.length = k + i ∧ less zero d = true := by
  induction rows generalizing k i with
  | nil => cases hr
  | cons r' rows ih =>
    cases i with
    | zero =>
      cases hr
      exact h.1
    | succ i =>
      obtain ⟨front, d, hr, hl, hd⟩ := ih h.2 hr
      exact ⟨front, d, hr, by omega, hd⟩

theorem coefficient_tail (rows : List (List α)) (i k : Nat) :
    coefficient (rows.map List.tail) i k = coefficient rows i (k + 1) := by
  unfold coefficient
  rw [List.getElem?_map]
  cases rows[i]? with
  | none => rfl
  | some r => cases r <;> rfl

theorem coefficient_of_getElem? {rows : List (List α)} {i : Nat} {r : List α}
    (hr : rows[i]? = some r) (k : Nat) : coefficient rows i k = r[k]?.getD zero := by
  rw [coefficient, hr, Option.getD_some]

/-- There is nothing above the diagonal. -/
theorem Staircase.coefficient_eq_zero {k : Nat} {rows : List (List α)} (h : Staircase k rows)
    {i j : Nat} (hj : k + i < j) : coefficient rows i j = zero := by
  cases hr : rows[i]? with
  | none => rw [coefficient, hr, Option.getD_none, List.getElem?_nil, Option.getD_none]
  | some r =>
    obtain ⟨front, d, rfl, hl, -⟩ := h.getElem? hr
    have hlen : (front ++ [d]).length ≤ j := by
      rw [List.length_append, List.length_singleton]
      omega
    rw [coefficient_of_getElem? hr, List.getElem?_eq_none hlen, Option.getD_none]

/-- The first column. -/
theorem Staircase.heads {k : Nat} {rows : List (List α)} (h : Staircase k rows) :
    rows.filterMap List.head? = (List.range rows.length).map (coefficient rows · 0) := by
  induction rows generalizing k with
  | nil => rfl
  | cons r rows ih =>
    obtain ⟨⟨front, d, rfl, -, -⟩, hrest⟩ := h
    rw [List.length_cons, List.range_succ_eq_map, List.map_cons, List.map_map]
    cases front with
    | nil => exact congrArg (d :: ·) (ih hrest)
    | cons x front => exact congrArg (x :: ·) (ih hrest)

variable [Exact α]

attribute [local instance] Exact.commRing

/-- A row of a triangle times a vector. -/
theorem Staircase.dot_row {rows : List (List α)} (h : Staircase 0 rows) {j : Nat} {s : List α}
    (hs : rows[j]? = some s) (ys : List α) :
    dot s ys =
      ∑ k ∈ Finset.range rows.length, coefficient rows j k * ys[k]?.getD zero := by
  obtain ⟨front, d, rfl, hl, -⟩ := h.getElem? hs
  have hj := (List.getElem?_eq_some_iff.1 hs).1
  have hlen : (front ++ [d]).length ≤ rows.length := by
    rw [List.length_append, List.length_singleton]
    omega
  rw [dot_eq_range hlen]
  exact Finset.sum_congr rfl fun k _ => by rw [coefficient_of_getElem? hs]

/-- Forward substitution from row `z.length` on adds the unknowns that solve the rows. -/
theorem forward_solves {z : List α} {rows : List (List α)} (h : Staircase z.length rows)
    {b : List α} (hb : rows.length ≤ b.length) :
    ∃ new, forward z rows b = z ++ new ∧ new.length = rows.length ∧
      ∀ (i : Nat) (r : List α) (y : α), rows[i]? = some r → b[i]? = some y →
        dot r (z ++ new) = y := by
  induction rows generalizing z b with
  | nil => exact ⟨[], by cases b <;> simp [forward], rfl, fun i r y hr => by cases hr⟩
  | cons r rows ih =>
    cases b with
    | nil => cases hb
    | cons y b =>
      obtain ⟨⟨front, d, rfl, hl, hd⟩, hrest⟩ := h
      let x := subProducts y z (front ++ [d]) / d
      have hz : (z ++ [x]).length = z.length + 1 := by simp
      obtain ⟨new, hnew, hlen, hsolve⟩ :=
        ih (z := z ++ [x]) (by rwa [hz]) (Nat.le_of_succ_le_succ hb)
      have hz' : z ++ [x] ++ new = z ++ x :: new := by simp
      rw [hz'] at hnew hsolve
      refine ⟨x :: new, ?_, congrArg (· + 1) hlen, ?_⟩
      · rw [← hnew, forward, List.getLast?_concat, Option.getD_some]
      · intro i r y' hr hy'
        cases i with
        | succ i => exact hsolve i r y' hr hy'
        | zero =>
          cases hr
          cases hy'
          have hx : x * d = y - dot front z := by
            have hsub : subProducts y z (front ++ [d]) = y - dot front z := by
              rw [subProducts_eq, dot_append_of_le (Nat.le_of_eq hl.symm), dot_comm]
            exact (Exact.div_mul_cancel _ (Exact.ne_zero_of_pos hd)).trans hsub
          rw [dot_append hl, dot_cons]
          calc dot front z + (d * x + dot [] new) = dot front z + d * x := by
                rw [show dot [] new = (0 : α) from rfl, add_zero]
            _ = y := by rw [mul_comm, hx]; ring

/-- Backward substitution solves the transposed system. -/
theorem backward_solves {n : Nat} {rows : List (List α)} (h : Staircase 0 rows)
    (hn : rows.length = n) {z : List α} (hz : z.length = n) :
    (backward (columns n rows) z).length = n ∧ ∀ k < n,
      ∑ i ∈ Finset.range n, coefficient rows i k * (backward (columns n rows) z)[i]?.getD zero =
        z[k]?.getD zero := by
  induction n generalizing rows z with
  | zero => exact ⟨rfl, fun k hk => absurd hk (Nat.not_lt_zero k)⟩
  | succ n ih =>
    obtain ⟨r, rows, rfl⟩ := List.exists_cons_of_length_eq_add_one hn
    obtain ⟨y, z, rfl⟩ := List.exists_cons_of_length_eq_add_one hz
    obtain ⟨⟨front, d, rfl, hl, hd⟩, hrest⟩ := h
    obtain rfl := List.length_eq_zero_iff.1 hl
    have hrows : (rows.map List.tail).length = n := by
      rw [List.length_map]
      exact Nat.succ.inj hn
    obtain ⟨hlen, hsolve⟩ := ih hrest.tail hrows (Nat.succ.inj hz)
    let below := rows.filterMap List.head?
    let xs := backward (columns n (rows.map List.tail)) z
    let x := subProducts y below xs / d
    have hback : backward (columns (n + 1) (([] ++ [d]) :: rows)) (y :: z) = x :: xs := rfl
    rw [hback]
    refine ⟨congrArg (· + 1) hlen, fun k hk => ?_⟩
    rw [Finset.sum_range_succ']
    cases k with
    | zero =>
      have hbelow : ∑ i ∈ Finset.range n, coefficient rows i 0 * xs[i]?.getD zero =
          dot below xs := by
        have hb : below = (List.range n).map (coefficient rows · 0) := by
          rw [← Nat.succ.inj hn]
          exact hrest.heads
        rw [hb, dot_eq_range (n := n) (by simp)]
        refine Finset.sum_congr rfl fun i hi => ?_
        rw [List.getElem?_map, List.getElem?_range (Finset.mem_range.1 hi)]
        rfl
      have hx : x * d = y - dot below xs := by
        exact (Exact.div_mul_cancel _ (Exact.ne_zero_of_pos hd)).trans (subProducts_eq y below xs)
      calc ∑ i ∈ Finset.range n, coefficient rows i 0 * xs[i]?.getD zero + d * x
          = dot below xs + (y - dot below xs) := by rw [hbelow, mul_comm d, hx]
        _ = y := by ring
    | succ k =>
      have hzero : coefficient (([] ++ [d]) :: rows) 0 (k + 1) = 0 := rfl
      rw [hzero, zero_mul, add_zero]
      refine Eq.trans (Finset.sum_congr rfl fun i _ => ?_) (hsolve k (Nat.lt_of_succ_lt_succ hk))
      rw [coefficient_tail]
      rfl

end SignalGraph.Ridge
