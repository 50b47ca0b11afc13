import Mathlib.Algebra.Order.BigOperators.Ring.Finset
import SignalGraph.Proofs.Ensemble.Factors

namespace SignalGraph.Ridge

open Scalar

section

variable {R : Type} [CommRing R] {n : Nat} {l : Nat → Nat → R}

/-- The quadratic form of the leading block up to a row. -/
def form (a : Nat → Nat → R) (m : Nat) (x : Nat → R) : R :=
  ∑ i ∈ Finset.range (m + 1), ∑ j ∈ Finset.range (m + 1), x i * a i j * x j

/-- The form at `-y` followed by one. -/
theorem form_extend {a : Nat → Nat → R} {m : Nat} (hsymm : ∀ i < m, a i m = a m i)
    {x y : Nat → R} (hx : ∀ i < m, x i = -y i) (hm : x m = 1) :
    form a m x =
      ∑ i ∈ Finset.range m, y i * (∑ j ∈ Finset.range m, a i j * y j) -
        2 * ∑ i ∈ Finset.range m, a m i * y i + a m m := by
  have hinner : ∀ i < m, ∑ j ∈ Finset.range (m + 1), x i * a i j * x j =
      y i * (∑ j ∈ Finset.range m, a i j * y j) - a m i * y i := by
    intro i hi
    rw [Finset.sum_range_succ, hx i hi, hm, hsymm i hi, Finset.mul_sum]
    have hsum : ∑ j ∈ Finset.range m, -y i * a i j * x j =
        ∑ j ∈ Finset.range m, y i * (a i j * y j) :=
      Finset.sum_congr rfl fun j hj => by rw [hx j (Finset.mem_range.1 hj)]; ring
    rw [hsum]
    ring
  have hlast : ∑ j ∈ Finset.range (m + 1), x m * a m j * x j =
      a m m - ∑ j ∈ Finset.range m, a m j * y j := by
    rw [Finset.sum_range_succ, hm]
    have hsum : ∑ j ∈ Finset.range m, 1 * a m j * x j = -∑ j ∈ Finset.range m, a m j * y j := by
      rw [← Finset.sum_neg_distrib]
      exact Finset.sum_congr rfl fun j hj => by rw [hx j (Finset.mem_range.1 hj)]; ring
    rw [hsum]
    ring
  rw [form, Finset.sum_range_succ, hlast,
    Finset.sum_congr rfl fun i hi => hinner i (Finset.mem_range.1 hi), Finset.sum_sub_distrib]
  ring

/-- The form of a matrix made of a product with its transpose and a multiple of the identity. -/
theorem form_normal {a : Nat → Nat → R} {c : R} {m p : Nat} {t : Nat → Nat → R} (x : Nat → R)
    (ha : ∀ i ≤ m, ∀ j ≤ m,
      a i j = ∑ q ∈ Finset.range p, t q i * t q j + if i = j then c else 0) :
    form a m x =
      ∑ q ∈ Finset.range p, (∑ i ∈ Finset.range (m + 1), t q i * x i) ^ 2 +
        c * ∑ i ∈ Finset.range (m + 1), x i ^ 2 := by
  have hrow : ∀ i ∈ Finset.range (m + 1), ∑ j ∈ Finset.range (m + 1), x i * a i j * x j =
      ∑ q ∈ Finset.range p, t q i * x i * ∑ j ∈ Finset.range (m + 1), t q j * x j +
        c * x i ^ 2 := by
    intro i hi
    have hle : ∀ k ∈ Finset.range (m + 1), k ≤ m := fun k hk =>
      Nat.lt_succ_iff.1 (Finset.mem_range.1 hk)
    have hentry : ∀ j ∈ Finset.range (m + 1), x i * a i j * x j =
        ∑ q ∈ Finset.range p, t q i * x i * (t q j * x j) + if i = j then c * x i ^ 2 else 0 := by
      intro j hj
      rw [ha i (hle i hi) j (hle j hj), mul_add, add_mul, Finset.mul_sum, Finset.sum_mul]
      congr 1
      · exact Finset.sum_congr rfl fun q _ => by ring
      · split
        · rename_i hij
          rw [hij]
          ring
        · ring
    rw [Finset.sum_congr rfl hentry, Finset.sum_add_distrib, Finset.sum_ite_eq, if_pos hi,
      Finset.sum_comm]
    congr 1
    exact Finset.sum_congr rfl fun q _ => (Finset.mul_sum _ _ _).symm
  rw [form, Finset.sum_congr rfl hrow, Finset.sum_add_distrib, Finset.sum_comm, Finset.mul_sum]
  congr 1
  refine Finset.sum_congr rfl fun q _ => ?_
  rw [← Finset.sum_mul, sq]

end

section

variable {α : Type} [Scalar α] [Euclidean α]

attribute [local instance] Exact.commRing Euclidean.linearOrder Euclidean.isStrictOrderedRing

/-- A matrix of so many rows whose form is positive on the vectors that end with one. -/
def Definite (n : Nat) (a : Nat → Nat → α) : Prop :=
  ∀ m < n, ∀ x : Nat → α, x m = 1 → 0 < form a m x

/-- What a new row leaves of the diagonal entry is a value of the form. -/
theorem Factors.form_eq {a : Nat → Nat → α} {rows : List (List α)} (h : Factors a rows)
    (hsymm : ∀ i ≤ rows.length, ∀ j ≤ rows.length, a i j = a j i) {row : List α}
    (hl : row.length = rows.length)
    (hrow : ∀ (j : Nat) (s : List α), rows[j]? = some s → dot s row = a rows.length j) :
    ∃ x : Nat → α, x rows.length = 1 ∧
      form a rows.length x = a rows.length rows.length - dot row row := by
  -- the vector comes from backward substitution with the new row
  obtain ⟨hlen, hback⟩ := backward_solves h.staircase rfl hl
  let y : Nat → α := fun i => (backward (columns rows.length rows) row)[i]?.getD zero
  let w : Nat → α := fun k => row[k]?.getD zero
  let x : Nat → α := fun i => if i < rows.length then -y i else 1
  have hx : ∀ i < rows.length, x i = -y i := fun i hi => if_pos hi
  have hm : x rows.length = 1 := if_neg (Nat.lt_irrefl _)
  have hw : ∀ j < rows.length,
      ∑ k ∈ Finset.range rows.length, coefficient rows j k * w k = a rows.length j := by
    intro j hj
    have hs : rows[j]? = some rows[j] := List.getElem?_eq_getElem hj
    rw [← hrow j _ hs, h.staircase.dot_row hs]
  have happly : ∀ i < rows.length, ∑ j ∈ Finset.range rows.length, a i j * y j =
      ∑ k ∈ Finset.range rows.length, coefficient rows i k * w k := by
    intro i hi
    refine apply_product (fun j hj => ?_) hback
    exact h.sum_coefficients (fun i hi j hj => hsymm i (Nat.le_of_lt hi) j (Nat.le_of_lt hj)) hi hj
  have hfirst : ∑ i ∈ Finset.range rows.length,
      y i * (∑ j ∈ Finset.range rows.length, a i j * y j) = ∑ k ∈ Finset.range rows.length, w k * w k := by
    rw [← pairing hback]
    exact Finset.sum_congr rfl fun i hi => by rw [happly i (Finset.mem_range.1 hi)]
  have hsecond : ∑ i ∈ Finset.range rows.length, a rows.length i * y i =
      ∑ k ∈ Finset.range rows.length, w k * w k := by
    rw [← pairing hback]
    exact Finset.sum_congr rfl fun i hi => by rw [hw i (Finset.mem_range.1 hi), mul_comm]
  have hdot : dot row row = ∑ k ∈ Finset.range rows.length, w k * w k :=
    dot_eq_range (Nat.le_of_eq hl) row
  refine ⟨x, hm, ?_⟩
  rw [form_extend (fun i hi => hsymm i (Nat.le_of_lt hi) _ (Nat.le_refl _)) hx hm, hfirst, hsecond,
    hdot]
  ring

/-- The factorization of a definite matrix goes through. -/
theorem factorFrom_definite {n : Nat} {a : Nat → Nat → α} (ha : Definite n a)
    (hsymm : ∀ i < n, ∀ j < n, a i j = a j i) {rows rest : List (List α)} (h : Factors a rows)
    (hrest : Below a rows.length rest) (hn : rows.length + rest.length = n) :
    ∃ found, factorFrom rows rest = some found := by
  induction rest generalizing rows with
  | nil => exact ⟨rows, rfl⟩
  | cons e rest ih =>
    rw [List.length_cons] at hn
    obtain ⟨hl, hrow⟩ := h.extendRow_solves hrest.head
    obtain ⟨x, hx, hform⟩ := h.form_eq
      (fun i hi j hj => hsymm i (by omega) j (by omega)) hl hrow
    have hpos : less zero (a rows.length rows.length -
        dot (extendRow [] rows e) (extendRow [] rows e)) = true := by
      rw [← hform]
      exact ha rows.length (by omega) x hx
    have hnext := h.extend_sqrt hrest.head rfl hpos
    have hlen : (rows ++ [extendRow [] rows e ++ [sqrt (a rows.length rows.length -
        dot (extendRow [] rows e) (extendRow [] rows e))]]).length = rows.length + 1 := by
      rw [List.length_append, List.length_singleton]
    rw [Factors.factorFrom_cons hrest.head rfl, if_pos hpos]
    exact ih hnext (hlen ▸ hrest.tail) (by omega)

/-- Normal equations with a positive number on the diagonal are definite. -/
theorem definite_normal {n p : Nat} {a t : Nat → Nat → α} {c : α} (hc : less zero c = true)
    (ha : ∀ i < n, ∀ j < n,
      a i j = ∑ q ∈ Finset.range p, t q i * t q j + if i = j then c else 0) : Definite n a := by
  intro m hm x hx
  rw [form_normal x fun i hi j hj => ha i (by omega) j (by omega), Finset.sum_range_succ _ m, hx]
  have hsquares : 0 ≤ ∑ i ∈ Finset.range m, x i ^ 2 := Finset.sum_nonneg fun i _ => sq_nonneg _
  have hnormal : 0 ≤ ∑ q ∈ Finset.range p, (∑ i ∈ Finset.range (m + 1), t q i * x i) ^ 2 :=
    Finset.sum_nonneg fun q _ => sq_nonneg _
  have hpos : 0 < c * (∑ i ∈ Finset.range m, x i ^ 2 + 1 ^ 2) := by
    apply mul_pos hc
    rw [one_pow]
    exact add_pos_of_nonneg_of_pos hsquares one_pos
  exact add_pos_of_nonneg_of_pos hnormal hpos

end

end SignalGraph.Ridge
