import Mathlib.Tactic.Ring
import SignalGraph.Matrix

namespace SignalGraph.Scalar

/-- Scalars that are added, multiplied and divided without rounding, all of them finite. -/
class Exact (α : Type) [Scalar α] : Prop where
  add_comm (a b : α) : a + b = b + a
  add_assoc (a b c : α) : a + b + c = a + (b + c)
  zero_add (a : α) : zero + a = a
  neg_add_cancel (a : α) : -a + a = zero
  sub_eq_add_neg (a b : α) : a - b = a + -b
  mul_comm (a b : α) : a * b = b * a
  mul_assoc (a b c : α) : a * b * c = a * (b * c)
  one_mul (a : α) : one * a = a
  add_mul (a b c : α) : (a + b) * c = a * c + b * c
  div_mul_cancel (a : α) {b : α} : b ≠ zero → a / b * b = a
  ofNat_succ (n : Nat) : ofNat (n + 1) = (ofNat n : α) + one
  same_iff (a b : α) : same a b = true ↔ a = b
  less_irrefl (a : α) : less a a = false
  less_zero_one : less (zero : α) one = true
  isFinite (a : α) : isFinite a = true

namespace Exact

variable {α : Type} [Scalar α] [Exact α]

theorem zero_mul (a : α) : zero * a = zero := by
  have h : zero * a + zero * a = zero * a := by rw [← add_mul, zero_add]
  calc zero * a = -(zero * a) + zero * a + zero * a := by rw [neg_add_cancel, zero_add]
    _ = -(zero * a) + (zero * a + zero * a) := add_assoc _ _ _
    _ = zero := by rw [h, neg_add_cancel]

/-- The ring that the operations make up. -/
abbrev commRing (α : Type) [Scalar α] [Exact α] : CommRing α where
  add_assoc := add_assoc
  zero := zero
  zero_add := zero_add
  add_zero a := by rw [add_comm]; exact zero_add a
  nsmul := @nsmulRec α ⟨zero⟩ _
  add_comm := add_comm
  left_distrib a b c := by rw [mul_comm, add_mul, mul_comm b, mul_comm c]
  right_distrib := add_mul
  zero_mul := zero_mul
  mul_zero a := by rw [mul_comm]; exact zero_mul a
  mul_assoc := mul_assoc
  one := one
  one_mul := one_mul
  mul_one a := by rw [mul_comm]; exact one_mul a
  sub_eq_add_neg := sub_eq_add_neg
  zsmul := @zsmulRec α ⟨zero⟩ _ _ (@nsmulRec α ⟨zero⟩ _)
  neg_add_cancel := neg_add_cancel
  mul_comm := mul_comm

theorem mul_one (a : α) : a * one = a := by rw [mul_comm, one_mul]

theorem add_zero (a : α) : a + zero = a := by rw [add_comm, zero_add]

theorem mul_zero (a : α) : a * zero = zero := by rw [mul_comm, zero_mul]

theorem neg_one_mul (a : α) : -one * a = -a := by
  let _ := commRing α
  exact (neg_mul one a).trans (congrArg (-·) (one_mul a))

theorem ne_zero_of_pos {a : α} (h : less zero a = true) : a ≠ zero := by
  rintro rfl
  rw [less_irrefl] at h
  cases h

/-- Adding the same number and scaling by the same step tells numbers apart. -/
theorem add_mul_left_inj {x d r r' : α} (hd : d ≠ zero) : x + d * r = x + d * r' ↔ r = r' := by
  refine ⟨fun h => ?_, fun h => by rw [h]⟩
  have hdr : d * r = d * r' := by
    have := congrArg (-x + ·) h
    simpa only [← add_assoc, neg_add_cancel, zero_add] using this
  have hr : one / d * d = one := div_mul_cancel one hd
  calc r = one / d * (d * r) := by rw [← mul_assoc, hr, one_mul]
    _ = r' := by rw [hdr, ← mul_assoc, hr, one_mul]

/-- Dividing is multiplying by the reciprocal. -/
theorem mul_one_div (a : α) {b : α} (hb : b ≠ zero) : a * (one / b) = a / b := by
  have hr : b * (one / b) = one := by rw [mul_comm, div_mul_cancel one hb]
  calc a * (one / b) = a / b * b * (one / b) := by rw [div_mul_cancel a hb]
    _ = a / b * (b * (one / b)) := mul_assoc _ _ _
    _ = a / b := by rw [hr, mul_one]

end Exact

end SignalGraph.Scalar
