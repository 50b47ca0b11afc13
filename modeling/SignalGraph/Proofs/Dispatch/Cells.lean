import SignalGraph.Dispatch.Builtin
import SignalGraph.Proofs.Graph.Constructors

namespace SignalGraph

/-- The elementwise operations of two operands. -/
inductive BinaryOp where
  | add
  | subtract
  | multiply
  | divide
  | power
deriving Repr, DecidableEq

/-- The elementwise operations of one operand. -/
inductive UnaryOp where
  | negative
  | sin
  | cos
  | tanh
  | exp
  | abs
  | square
  | sqrt
  | relu
deriving Repr, DecidableEq

variable {α : Type} [Scalar α]

namespace BinaryOp

def name : BinaryOp → String
  | add => "add"
  | subtract => "subtract"
  | multiply => "multiply"
  | divide => "divide"
  | power => "power"

def apply : BinaryOp → α → α → α
  | add => (· + ·)
  | subtract => (· - ·)
  | multiply => (· * ·)
  | divide => (· / ·)
  | power => Scalar.pow

theorem binary_name (op : BinaryOp) : Numeric.binary? op.name = some (op.apply : α → α → α) := by
  cases op <;> rfl

end BinaryOp

namespace UnaryOp

def name : UnaryOp → String
  | negative => "negative"
  | sin => "sin"
  | cos => "cos"
  | tanh => "tanh"
  | exp => "exp"
  | abs => "abs"
  | square => "square"
  | sqrt => "sqrt"
  | relu => "relu"

def apply : UnaryOp → α → α
  | negative => (-·)
  | sin => Scalar.sin
  | cos => Scalar.cos
  | tanh => Scalar.tanh
  | exp => Scalar.exp
  | abs => Scalar.abs
  | square => Scalar.square
  | sqrt => Scalar.sqrt
  | relu => Scalar.relu

theorem unary_name (op : UnaryOp) : Numeric.unary? op.name = some (op.apply : α → α) := by
  cases op <;> rfl

end UnaryOp

/-- What stands at a position, as a number. -/
def Cell.Stands (g : Graph α) (value : Nat → List α) : Cell α → α → Prop
  | .node n, x => g.Carries value n [x]
  | .scalar c, x => c = x

theorem Cell.Stands.later {g g' : Graph α} {value value' : Nat → List α} {c : Cell α} {x : α}
    (h : c.Stands g value x) (hl : g.Later value g' value') : c.Stands g' value' x := by
  cases c with
  | node n => exact Graph.Carries.later h hl
  | scalar c => exact h

variable [Scalar.Exact α] {g g' : Graph α} {value : Nat → List α} {n : Node}

/-- A number times a node, plus a number. -/
theorem Build.affine_one {op : String} {a : Node} {c d x : α} (hs : g.Steady value)
    (ha : g.Carries value a [x]) (hb : (affine op [(a, c)] d).run g = .ok (n, g')) :
    ∃ value', g.Later value g' value' ∧ g'.Carries value' n [c * x + d] := by
  obtain ⟨value', hl, hc⟩ := affine_steady hs (by simp) (.cons ha .nil) hb
  refine ⟨value', hl, ?_⟩
  simpa [Scalar.Exact.add_zero] using hc

/-- Two numbers times nodes. -/
theorem Build.affine_two {op : String} {a b : Node} {c d x y : α} (hs : g.Steady value)
    (ha : g.Carries value a [x]) (hb : g.Carries value b [y])
    (hr : (affine op [(a, c), (b, d)] Scalar.zero).run g = .ok (n, g')) :
    ∃ value', g.Later value g' value' ∧ g'.Carries value' n [c * x + d * y] := by
  obtain ⟨value', hl, hc⟩ := affine_steady hs (by simp) (.cons ha (.cons hb .nil)) hr
  refine ⟨value', hl, ?_⟩
  simpa [Scalar.Exact.add_zero] using hc

omit [Scalar.Exact α] in
/-- A function of a single number. -/
theorem Build.decode_one {a : Node} {f : α → α} {x : α} (hs : g.Steady value)
    (ha : g.Carries value a [x])
    (hb : (decode a (fun xs => xs.map f) none .empty).run g = .ok (n, g')) :
    ∃ value', g.Later value g' value' ∧ g'.Carries value' n [f x] :=
  decode_steady (f := fun xs => xs.map f) hs ha rfl hb

namespace Builtin

open Build Scalar

/-- The node of an operation of two operands has the value that the operation computes. -/
theorem binaryNode_steady (op : BinaryOp) {c d : Cell α} {x y : α} (hs : g.Steady value)
    (hc : c.Stands g value x) (hd : d.Stands g value y)
    (hb : (binaryNode op.name [c, d]).run g = .ok (n, g')) :
    ∃ value', g.Later value g' value' ∧ g'.Carries value' n [op.apply x y] := by
  cases c with
  | node a =>
    cases d with
    | node b =>
      cases op with
      | add =>
        obtain ⟨value', hl, h⟩ := affine_two hs hc hd hb
        rw [Exact.one_mul, Exact.one_mul] at h
        exact ⟨value', hl, h⟩
      | subtract =>
        obtain ⟨value', hl, h⟩ := affine_two hs hc hd hb
        rw [Exact.one_mul, Exact.neg_one_mul, ← Exact.sub_eq_add_neg] at h
        exact ⟨value', hl, h⟩
      | multiply => exact product_steady hs hc hd hb
      | divide => exact absurd hb throw_ok
      | power => exact absurd hb throw_ok
    | scalar k =>
      obtain rfl : k = y := hd
      cases op with
      | add =>
        obtain ⟨value', hl, h⟩ := affine_one hs hc hb
        rw [Exact.one_mul] at h
        exact ⟨value', hl, h⟩
      | subtract =>
        obtain ⟨value', hl, h⟩ := affine_one hs hc hb
        rw [Exact.one_mul, ← Exact.sub_eq_add_neg] at h
        exact ⟨value', hl, h⟩
      | multiply =>
        obtain ⟨value', hl, h⟩ := affine_one hs hc hb
        rw [Exact.add_zero, Exact.mul_comm] at h
        exact ⟨value', hl, h⟩
      | divide =>
        simp only [binaryNode, BinaryOp.name] at hb
        split at hb
        · exact absurd hb throw_ok
        · rename_i hk
          have hk' : k ≠ zero := fun h => hk ((Exact.same_iff k zero).2 h)
          obtain ⟨value', hl, h⟩ := affine_one hs hc hb
          rw [Exact.add_zero, Exact.mul_comm, Exact.mul_one_div x hk'] at h
          exact ⟨value', hl, h⟩
      | power => exact decode_one (f := (pow · k)) hs hc hb
  | scalar k =>
    obtain rfl : k = x := hc
    cases d with
    | node b =>
      cases op with
      | add =>
        obtain ⟨value', hl, h⟩ := affine_one hs hd hb
        rw [Exact.one_mul, Exact.add_comm] at h
        exact ⟨value', hl, h⟩
      | subtract =>
        obtain ⟨value', hl, h⟩ := affine_one hs hd hb
        rw [Exact.neg_one_mul, Exact.add_comm, ← Exact.sub_eq_add_neg] at h
        exact ⟨value', hl, h⟩
      | multiply =>
        obtain ⟨value', hl, h⟩ := affine_one hs hd hb
        rw [Exact.add_zero] at h
        exact ⟨value', hl, h⟩
      | divide => exact absurd hb throw_ok
      | power => exact absurd hb throw_ok
    | scalar k' => exact absurd hb throw_ok

theorem unaryNode_steady (op : UnaryOp) {c : Cell α} {x : α} (hs : g.Steady value)
    (hc : c.Stands g value x) (hb : (unaryNode op.name op.apply [c]).run g = .ok (n, g')) :
    ∃ value', g.Later value g' value' ∧ g'.Carries value' n [op.apply x] := by
  cases c with
  | scalar k => exact absurd hb throw_ok
  | node a =>
    cases op with
    | negative =>
      obtain ⟨value', hl, h⟩ := affine_one hs hc hb
      rw [Exact.add_zero, Exact.neg_one_mul] at h
      exact ⟨value', hl, h⟩
    | _ => exact decode_one hs hc hb

end Builtin

end SignalGraph
