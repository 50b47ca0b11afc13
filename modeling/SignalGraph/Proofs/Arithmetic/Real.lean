import Mathlib.Analysis.SpecialFunctions.Pow.Real
import SignalGraph.Proofs.Arithmetic.Ordered

namespace SignalGraph

noncomputable instance : Scalar ℝ where
  ofNat n := n
  less a b := decide (a < b)
  same a b := decide (a = b)
  isFinite _ := true
  pi := Real.pi
  abs a := |a|
  sqrt := Real.sqrt
  exp := Real.exp
  expMinusOne a := Real.exp a - 1
  log := Real.log
  logOnePlus a := Real.log (1 + a)
  sin := Real.sin
  cos := Real.cos
  tanh := Real.tanh
  pow a b := a ^ b
  nearestNat a := ⌊a + 1 / 2⌋.toNat
  text a := toString ⌊a⌋

namespace Scalar

theorem real_ofNat (n : Nat) : (ofNat n : ℝ) = n := rfl

theorem real_zero : (zero : ℝ) = 0 := Nat.cast_zero

theorem real_one : (one : ℝ) = 1 := Nat.cast_one

theorem real_less {a b : ℝ} : less a b = true ↔ a < b := decide_eq_true_iff

theorem real_sqrt (a : ℝ) : sqrt a = Real.sqrt a := rfl

end Scalar

open Scalar

instance : Euclidean ℝ where
  add_comm := add_comm
  add_assoc := add_assoc
  zero_add a := by rw [real_zero, zero_add]
  neg_add_cancel a := by rw [real_zero, neg_add_cancel]
  sub_eq_add_neg := sub_eq_add_neg
  mul_comm := mul_comm
  mul_assoc := mul_assoc
  one_mul a := by rw [real_one, one_mul]
  add_mul := add_mul
  div_mul_cancel a b h := div_mul_cancel₀ a (real_zero ▸ h)
  ofNat_succ n := by rw [real_ofNat, real_ofNat, real_one, Nat.cast_succ]
  same_iff _ _ := decide_eq_true_iff
  less_irrefl _ := decide_eq_false (lt_irrefl _)
  less_zero_one := by rw [real_less, real_zero, real_one]; exact zero_lt_one
  isFinite _ := rfl
  less_trans h h' := real_less.2 (lt_trans (real_less.1 h) (real_less.1 h'))
  less_connected h h' :=
    le_antisymm (not_lt.1 (of_decide_eq_false h')) (not_lt.1 (of_decide_eq_false h))
  add_less_add c _ _ h := real_less.2 (add_lt_add_right (real_less.1 h) c)
  mul_positive h h' := by
    rw [real_less, real_zero] at h h' ⊢
    exact mul_pos h h'
  sqrt_positive h := by
    rw [real_less, real_zero] at h ⊢
    exact Real.sqrt_pos.2 h
  sqrt_mul_sqrt h := by
    rw [real_less, real_zero] at h
    exact Real.mul_self_sqrt h.le

end SignalGraph
