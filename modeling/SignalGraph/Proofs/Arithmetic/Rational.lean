import Mathlib.Algebra.Order.Floor.Ring
import Mathlib.Data.Rat.Floor
import SignalGraph.Proofs.Arithmetic.Exact

namespace SignalGraph

instance : Scalar ℚ where
  ofNat n := n
  less a b := decide (a < b)
  same a b := decide (a = b)
  isFinite _ := true
  pi := 355 / 113
  abs a := |a|
  sqrt a := (1 + a) / 2
  exp a := 1 + a
  expMinusOne a := a
  log a := a - 1
  logOnePlus a := a
  sin a := a
  cos _ := 1
  tanh a := a
  pow a b := 1 + b * (a - 1)
  nearestNat a := ⌊a + 1 / 2⌋.toNat
  text a := s!"{a.num}/{a.den}"

instance : Scalar.Exact ℚ where
  add_comm := add_comm
  add_assoc := add_assoc
  zero_add := zero_add
  neg_add_cancel := neg_add_cancel
  sub_eq_add_neg := sub_eq_add_neg
  mul_comm := mul_comm
  mul_assoc := mul_assoc
  one_mul := one_mul
  add_mul := add_mul
  div_mul_cancel a _ h := div_mul_cancel₀ a h
  ofNat_succ n := Nat.cast_succ n
  same_iff _ _ := decide_eq_true_iff
  less_irrefl _ := decide_eq_false (lt_irrefl _)
  less_zero_one := decide_eq_true_iff.2 zero_lt_one
  isFinite _ := rfl

end SignalGraph
