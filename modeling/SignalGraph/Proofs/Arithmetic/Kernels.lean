import SignalGraph.Proofs.Arithmetic.Exact

namespace SignalGraph

variable {α : Type} [Scalar α]

namespace Scalar

/-- The sum of a list, from the left. -/
def sum (xs : List α) : α := xs.foldl (· + ·) zero

variable [Exact α]

theorem foldl_add (a : α) (xs : List α) : xs.foldl (· + ·) a = a + sum xs := by
  induction xs generalizing a with
  | nil => exact (Exact.add_zero a).symm
  | cons x xs ih =>
    rw [sum, List.foldl_cons, List.foldl_cons, ih, ih (zero + x), Exact.zero_add, Exact.add_assoc]

omit [Exact α] in
@[simp] theorem sum_nil : sum ([] : List α) = zero := rfl

@[simp] theorem sum_cons (x : α) (xs : List α) : sum (x :: xs) = x + sum xs := by
  rw [sum, List.foldl_cons, foldl_add, Exact.zero_add]

theorem sum_append (xs ys : List α) : sum (xs ++ ys) = sum xs + sum ys := by
  rw [sum, List.foldl_append, foldl_add]
  rfl

/-- The order of a sum does not matter. -/
theorem sum_perm {xs ys : List α} (h : xs.Perm ys) : sum xs = sum ys := by
  induction h with
  | nil => rfl
  | cons x _ ih => rw [sum_cons, sum_cons, ih]
  | swap x y xs =>
    simp only [sum_cons]
    rw [← Exact.add_assoc, ← Exact.add_assoc, Exact.add_comm y x]
  | trans _ _ ih ih' => exact ih.trans ih'

theorem sum_replicate_mul (c : α) (xs : List α) :
    sum (List.zipWith (· * ·) (List.replicate xs.length c) xs) = c * sum xs := by
  induction xs with
  | nil => exact (Exact.mul_zero c).symm
  | cons x xs ih =>
    rw [List.length_cons, List.replicate_succ, List.zipWith_cons_cons, sum_cons, ih, sum_cons,
      Exact.mul_comm c (x + sum xs), Exact.add_mul, Exact.mul_comm x, Exact.mul_comm (sum xs)]

theorem addProducts_eq (a : α) (xs ys : List α) :
    addProducts a xs ys = a + sum (List.zipWith (· * ·) xs ys) := by
  induction xs generalizing a ys with
  | nil => exact (Exact.add_zero a).symm
  | cons x xs ih =>
    cases ys with
    | nil => exact (Exact.add_zero a).symm
    | cons y ys => rw [addProducts, ih, List.zipWith_cons_cons, sum_cons, Exact.add_assoc]

theorem dot_eq_sum (xs ys : List α) : dot xs ys = sum (List.zipWith (· * ·) xs ys) := by
  rw [dot, addProducts_eq, Exact.zero_add]

end Scalar

namespace Kernel

open Scalar

variable [Exact α]

/-- Eight running sums and the rest add up to the same number as the products. -/
theorem blockSums_spec (sums xs : List α) (h : sums.length = 8) :
    ((blockSums sums xs).1).length = 8 ∧
      sum (blockSums sums xs).1 + sum (blockSums sums xs).2 = sum sums + sum xs := by
  let _ := Exact.commRing α
  fun_induction blockSums sums xs with
  | case1 sums a b c d e f g h rest ih =>
    obtain ⟨p0, p1, p2, p3, p4, p5, p6, p7, rfl⟩ : ∃ p0 p1 p2 p3 p4 p5 p6 p7 : α,
        sums = [p0, p1, p2, p3, p4, p5, p6, p7] := by
      match sums, h with
      | [p0, p1, p2, p3, p4, p5, p6, p7], _ => exact ⟨p0, p1, p2, p3, p4, p5, p6, p7, rfl⟩
    obtain ⟨hl, hs⟩ := ih rfl
    refine ⟨hl, hs.trans ?_⟩
    simp only [List.zipWith_cons_cons, List.zipWith_nil_left, sum_cons]
    ring
  | case2 sums rest _ => exact ⟨h, rfl⟩

theorem blockedDot_eq_dot (r x : List α) : blockedDot r x = dot r x := by
  let _ := Exact.commRing α
  have hz : sum (List.replicate 8 (zero : α)) = zero := by
    simp [List.replicate, Exact.zero_add]
  obtain ⟨hl, hs⟩ := blockSums_spec (List.replicate 8 (zero : α)) (List.zipWith (· * ·) r x) rfl
  rw [dot_eq_sum, blockedDot]
  rw [hz, Exact.zero_add] at hs
  generalize blockSums (List.replicate 8 (zero : α)) (List.zipWith (· * ·) r x) = b at hl hs
  obtain ⟨sums, rest⟩ := b
  match sums, hl with
  | [p0, p1, p2, p3, p4, p5, p6, p7], _ =>
    rw [← hs]
    simp only [foldl_add, List.cons_append, List.nil_append, sum_cons, sum_nil, Exact.zero_add,
      Exact.add_zero]
    ring

theorem sequential_eq_blocked : (sequential : Kernel α) = blocked := by
  funext a x acc
  simp only [sequential, blocked, blockedDot_eq_dot, Exact.mul_one]

end Kernel

end SignalGraph
