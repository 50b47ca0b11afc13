import Mathlib.Algebra.BigOperators.Group.Finset.Sigma
import SignalGraph.Proofs.Arithmetic.Ordered
import SignalGraph.Proofs.Ensemble.Triangles

namespace SignalGraph.Ridge

open Scalar

section

variable {R : Type} [CommRing R] {n : Nat} {l : Nat → Nat → R}

/-- A product with its transpose, applied to a vector in two steps. -/
theorem apply_product {a y w : Nat → R} {i : Nat}
    (ha : ∀ j < n, ∑ k ∈ Finset.range n, l i k * l j k = a j)
    (hw : ∀ k < n, ∑ j ∈ Finset.range n, l j k * y j = w k) :
    ∑ j ∈ Finset.range n, a j * y j = ∑ k ∈ Finset.range n, l i k * w k := by
  calc ∑ j ∈ Finset.range n, a j * y j
      = ∑ j ∈ Finset.range n, ∑ k ∈ Finset.range n, l i k * (l j k * y j) := by
        refine Finset.sum_congr rfl fun j hj => ?_
        rw [← ha j (Finset.mem_range.1 hj), Finset.sum_mul]
        exact Finset.sum_congr rfl fun k _ => mul_assoc _ _ _
    _ = ∑ k ∈ Finset.range n, l i k * ∑ j ∈ Finset.range n, l j k * y j := by
        rw [Finset.sum_comm]
        exact Finset.sum_congr rfl fun k _ => (Finset.mul_sum _ _ _).symm
    _ = ∑ k ∈ Finset.range n, l i k * w k :=
        Finset.sum_congr rfl fun k hk => by rw [hw k (Finset.mem_range.1 hk)]

/-- A triangle moves from one side of a pairing to the other as its transpose. -/
theorem pairing {y w u : Nat → R} (hw : ∀ k < n, ∑ j ∈ Finset.range n, l j k * y j = w k) :
    ∑ j ∈ Finset.range n, y j * ∑ k ∈ Finset.range n, l j k * u k =
      ∑ k ∈ Finset.range n, w k * u k := by
  calc ∑ j ∈ Finset.range n, y j * ∑ k ∈ Finset.range n, l j k * u k
      = ∑ j ∈ Finset.range n, ∑ k ∈ Finset.range n, l j k * y j * u k := by
        refine Finset.sum_congr rfl fun j _ => ?_
        rw [Finset.mul_sum]
        exact Finset.sum_congr rfl fun k _ => by ring
    _ = ∑ k ∈ Finset.range n, (∑ j ∈ Finset.range n, l j k * y j) * u k := by
        rw [Finset.sum_comm]
        exact Finset.sum_congr rfl fun k _ => (Finset.sum_mul _ _ _).symm
    _ = ∑ k ∈ Finset.range n, w k * u k :=
        Finset.sum_congr rfl fun k hk => by rw [hw k (Finset.mem_range.1 hk)]

end

variable {α : Type} [Scalar α]

/-- The rows of a triangle whose product with its transpose is the leading block of a matrix. -/
structure Factors (a : Nat → Nat → α) (rows : List (List α)) : Prop where
  staircase : Staircase 0 rows
  product : ∀ (i : Nat) (r : List α), rows[i]? = some r →
    ∀ (j : Nat) (s : List α), j ≤ i → rows[j]? = some s → dot s r = a i j

theorem Factors.nil {a : Nat → Nat → α} : Factors a [] := ⟨trivial, fun i r hr => by cases hr⟩

/-- The rows of a matrix from row `m` on, each given at least up to the diagonal. -/
def Below (a : Nat → Nat → α) (m : Nat) (rest : List (List α)) : Prop :=
  ∀ (i : Nat) (e : List α), rest[i]? = some e → ∀ j ≤ m + i, e[j]? = some (a (m + i) j)

omit [Scalar α] in
theorem Below.tail {a : Nat → Nat → α} {m : Nat} {e : List α} {rest : List (List α)}
    (h : Below a m (e :: rest)) : Below a (m + 1) rest := by
  intro i e' he j hj
  have := h (i + 1) e' he j (by omega)
  rwa [show m + 1 + i = m + (i + 1) by omega]

omit [Scalar α] in
theorem Below.head {a : Nat → Nat → α} {m : Nat} {e : List α} {rest : List (List α)}
    (h : Below a m (e :: rest)) : ∀ j ≤ m, e[j]? = some (a m j) := h 0 e rfl

theorem extendRow_eq_forward (row : List α) (rows : List (List α)) (entries : List α) :
    extendRow row rows entries = forward row rows entries := by
  induction rows generalizing row entries with
  | nil => cases entries <;> rfl
  | cons r rows ih =>
    cases entries with
    | nil => rfl
    | cons x entries => exact ih _ _

attribute [local instance] Exact.commRing

section

variable [Exact α]

namespace Factors

variable {a : Nat → Nat → α} {rows : List (List α)}

/-- A new row solves the system of the rows before it. -/
theorem extendRow_solves (h : Factors a rows) {entries : List α}
    (he : ∀ j ≤ rows.length, entries[j]? = some (a rows.length j)) :
    (extendRow [] rows entries).length = rows.length ∧
      ∀ (j : Nat) (s : List α), rows[j]? = some s →
        dot s (extendRow [] rows entries) = a rows.length j := by
  have hlen : rows.length ≤ entries.length :=
    Nat.le_of_lt (List.getElem?_eq_some_iff.1 (he _ (Nat.le_refl _))).1
  obtain ⟨row, hrow, hl, hsolve⟩ := forward_solves (z := []) h.staircase hlen
  rw [List.nil_append] at hrow hsolve
  rw [extendRow_eq_forward, hrow]
  refine ⟨hl, fun j s hs => hsolve j s _ hs (he j ?_)⟩
  exact Nat.le_of_lt (List.getElem?_eq_some_iff.1 hs).1

/-- A row that solves the system of the rows before it, with the root of what is left of the diagonal
entry, makes them the factor of the next block. -/
theorem extend (h : Factors a rows) {row : List α} {d : α} (hl : row.length = rows.length)
    (hrow : ∀ (j : Nat) (s : List α), rows[j]? = some s → dot s row = a rows.length j)
    (hpos : less zero d = true) (hd : d * d = a rows.length rows.length - dot row row) :
    Factors a (rows ++ [row ++ [d]]) where
  staircase := h.staircase.append (by omega) hpos
  product := by
    intro i r hr j s hj hs
    rcases Nat.lt_trichotomy i rows.length with hi | rfl | hi
    · rw [List.getElem?_append_left hi] at hr
      rw [List.getElem?_append_left (by omega)] at hs
      exact h.product i r hr j s hj hs
    · rw [List.getElem?_append_right (Nat.le_refl _), Nat.sub_self] at hr
      cases hr
      rcases Nat.lt_or_eq_of_le hj with hjlt | rfl
      · rw [List.getElem?_append_left hjlt] at hs
        obtain ⟨front, x, rfl, hf, -⟩ := h.staircase.getElem? hs
        rw [← hrow j _ hs]
        have hshort : (front ++ [x]).length ≤ row.length := by
          rw [List.length_append, List.length_singleton, hf, hl]
          omega
        exact dot_append_of_le hshort [d]
      · rw [List.getElem?_append_right (Nat.le_refl _), Nat.sub_self] at hs
        cases hs
        rw [dot_append rfl, dot_cons, show dot [] [] = (0 : α) from rfl, hd]
        ring
    · have hlen := (List.getElem?_eq_some_iff.1 hr).1
      rw [List.length_append, List.length_singleton] at hlen
      omega

/-- The rows of a symmetric matrix are the products of the triangle's rows. -/
theorem sum_coefficients (h : Factors a rows)
    (hsymm : ∀ i < rows.length, ∀ j < rows.length, a i j = a j i) {i j : Nat}
    (hi : i < rows.length) (hj : j < rows.length) :
    ∑ k ∈ Finset.range rows.length, coefficient rows i k * coefficient rows j k = a i j := by
  -- the shorter row comes first in `product`
  have hle : ∀ i j, i < rows.length → j ≤ i →
      ∑ k ∈ Finset.range rows.length, coefficient rows j k * coefficient rows i k = a i j := by
    intro i j hi hj
    have hr : rows[i]? = some rows[i] := List.getElem?_eq_getElem hi
    have hs : rows[j]? = some rows[j] := List.getElem?_eq_getElem (by omega)
    rw [← h.product i _ hr j _ hj hs, h.staircase.dot_row hs]
    exact Finset.sum_congr rfl fun k _ => by rw [coefficient_of_getElem? hr]
  rcases Nat.le_total j i with hij | hij
  · rw [← hle i j hi hij]
    exact Finset.sum_congr rfl fun k _ => mul_comm _ _
  · rw [hsymm i hi j hj, ← hle j i hj hij]

/-- Both substitutions together solve the system of the matrix. -/
theorem substitute_solves (h : Factors a rows)
    (hsymm : ∀ i < rows.length, ∀ j < rows.length, a i j = a j i) {b : List α}
    (hb : b.length = rows.length) :
    (substitute rows b).length = rows.length ∧ ∀ i < rows.length,
      ∑ j ∈ Finset.range rows.length, a i j * (substitute rows b)[j]?.getD zero =
        b[i]?.getD zero := by
  obtain ⟨z, hz, hl, hforward⟩ := forward_solves (z := []) h.staircase (Nat.le_of_eq hb.symm)
  rw [List.nil_append] at hz hforward
  obtain ⟨hlen, hback⟩ := backward_solves h.staircase rfl hl
  rw [substitute, hz]
  refine ⟨hlen, fun i hi => ?_⟩
  have hr : rows[i]? = some rows[i] := List.getElem?_eq_getElem hi
  have hy : b[i]? = some b[i] := List.getElem?_eq_getElem (by omega)
  rw [apply_product (fun j hj => h.sum_coefficients hsymm hi hj) hback,
    ← h.staircase.dot_row hr, hforward i _ _ hr hy, hy, Option.getD_some]

/-- One row of the factorization, with what is left of its diagonal entry. -/
theorem factorFrom_cons {e : List α} {rest : List (List α)}
    (he : ∀ j ≤ rows.length, e[j]? = some (a rows.length j)) {d : α}
    (hd : d = a rows.length rows.length - dot (extendRow [] rows e) (extendRow [] rows e)) :
    factorFrom rows (e :: rest) =
      if less zero d then factorFrom (rows ++ [extendRow [] rows e ++ [sqrt d]]) rest else none := by
  rw [factorFrom, he _ (Nat.le_refl _), Option.getD_some, hd, ← subProducts_eq]

end Factors

end

section

variable [Euclidean α]

namespace Factors

variable {a : Nat → Nat → α} {rows : List (List α)}

theorem extend_sqrt (h : Factors a rows) {e : List α}
    (he : ∀ j ≤ rows.length, e[j]? = some (a rows.length j)) {d : α}
    (hd : d = a rows.length rows.length - dot (extendRow [] rows e) (extendRow [] rows e))
    (hpos : less zero d = true) : Factors a (rows ++ [extendRow [] rows e ++ [sqrt d]]) := by
  obtain ⟨hl, hrow⟩ := h.extendRow_solves he
  refine h.extend hl hrow (Euclidean.sqrt_positive hpos) ?_
  rw [Euclidean.sqrt_mul_sqrt hpos, hd]

/-- What the factorization finds is a factor of the whole matrix. -/
theorem of_factorFrom {rest found : List (List α)} (h : Factors a rows)
    (hrest : Below a rows.length rest) (hf : factorFrom rows rest = some found) :
    Factors a found ∧ found.length = rows.length + rest.length := by
  induction rest generalizing rows with
  | nil =>
    cases hf
    exact ⟨h, rfl⟩
  | cons e rest ih =>
    rw [factorFrom_cons hrest.head rfl] at hf
    split at hf
    · rename_i hpos
      have hlen : (rows ++ [extendRow [] rows e ++ [sqrt (a rows.length rows.length -
          dot (extendRow [] rows e) (extendRow [] rows e))]]).length = rows.length + 1 := by
        rw [List.length_append, List.length_singleton]
      obtain ⟨hfactors, hcount⟩ := ih (h.extend_sqrt hrest.head rfl hpos) (hlen ▸ hrest.tail) hf
      refine ⟨hfactors, ?_⟩
      rw [hcount, hlen, List.length_cons]
      omega
    · cases hf

end Factors

end

end SignalGraph.Ridge
