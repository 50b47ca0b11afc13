import Mathlib.Algebra.Order.Ring.Defs
import SignalGraph.Proofs.Arithmetic.Exact

namespace SignalGraph.Scalar

/-- Exact scalars in the order of a field, with the square roots of positive numbers. -/
class Euclidean (α : Type) [Scalar α] : Prop extends Exact α where
  less_trans {a b c : α} : less a b = true → less b c = true → less a c = true
  less_connected {a b : α} : less a b = false → less b a = false → a = b
  add_less_add (c : α) {a b : α} : less a b = true → less (c + a) (c + b) = true
  mul_positive {a b : α} : less zero a = true → less zero b = true → less zero (a * b) = true
  sqrt_positive {a : α} : less zero a = true → less zero (sqrt a) = true
  sqrt_mul_sqrt {a : α} : less zero a = true → sqrt a * sqrt a = a

namespace Euclidean

variable {α : Type} [Scalar α] [Euclidean α]

theorem less_asymm {a b : α} (h : less a b = true) : less b a = false := by
  refine Bool.eq_false_iff.2 fun hba => ?_
  have := less_trans h hba
  rw [Exact.less_irrefl] at this
  cases this

/-- The order that the comparison makes up. -/
abbrev linearOrder (α : Type) [Scalar α] [Euclidean α] : LinearOrder α where
  le a b := less b a = false
  lt a b := less a b = true
  le_refl a := Exact.less_irrefl a
  le_trans a b c hab hbc := by
    refine Bool.eq_false_iff.2 fun hca => ?_
    cases hlt : less a b with
    | false =>
      obtain rfl := less_connected hlt hab
      exact Bool.eq_false_iff.1 hbc hca
    | true => exact Bool.eq_false_iff.1 hbc (less_trans hca hlt)
  lt_iff_le_not_ge a b := ⟨fun h => ⟨less_asymm h, by simp [h]⟩, fun h => by simpa using h.2⟩
  le_antisymm a b hab hba := less_connected hba hab
  le_total a b := by
    cases hlt : less a b with
    | false => exact .inr rfl
    | true => exact .inl (less_asymm hlt)
  toDecidableLE a b := inferInstanceAs (Decidable (less b a = false))
  toDecidableLT a b := inferInstanceAs (Decidable (less a b = true))
  toDecidableEq a b := decidable_of_iff _ (Exact.same_iff a b)

section

attribute [local instance] Exact.commRing linearOrder

theorem isStrictOrderedRing (α : Type) [Scalar α] [Euclidean α] : IsStrictOrderedRing α := by
  have hadd : ∀ a b : α, a ≤ b → ∀ c, c + a ≤ c + b := by
    intro a b hab c
    rcases eq_or_lt_of_le hab with rfl | hlt
    · exact le_refl _
    · exact le_of_lt (add_less_add c hlt)
  have hordered : IsOrderedAddMonoid α :=
    ⟨fun a b hab c => by simpa only [add_comm _ c] using hadd a b hab c, hadd⟩
  have honepos : (zero : α) < one := Exact.less_zero_one
  have hone : ZeroLEOneClass α := ⟨le_of_lt honepos⟩
  have hnontrivial : Nontrivial α := ⟨zero, one, ne_of_lt honepos⟩
  exact .of_mul_pos fun _ _ ha hb => mul_positive ha hb

end

end Euclidean

end SignalGraph.Scalar
