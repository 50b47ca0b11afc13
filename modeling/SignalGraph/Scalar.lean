namespace SignalGraph

/-- Numbers with the arithmetic, comparisons and elementary functions of the operations.
Comparisons answer `false` on a value that is not a number. -/
class Scalar (α : Type) extends Add α, Sub α, Mul α, Div α, Neg α where
  ofNat : Nat → α
  less : α → α → Bool
  same : α → α → Bool
  isFinite : α → Bool
  pi : α
  abs : α → α
  sqrt : α → α
  exp : α → α
  /-- The value of `exp x - 1`. -/
  expMinusOne : α → α
  log : α → α
  /-- The value of `log (1 + x)`. -/
  logOnePlus : α → α
  sin : α → α
  cos : α → α
  tanh : α → α
  pow : α → α → α
  /-- The nearest natural number, a half going up; zero for what lies below. -/
  nearestNat : α → Nat
  /-- The number as messages write it. -/
  text : α → String

namespace Scalar

variable {α : Type} [Scalar α]

def zero : α := ofNat 0

def one : α := ofNat 1

def ofInt (i : Int) : α := if i < 0 then -ofNat i.natAbs else ofNat i.natAbs

/-- The quotient of two whole numbers. -/
def ratio (a b : Nat) : α := ofNat a / ofNat b

def atMost (a b : α) : Bool := less a b || same a b

/-- The larger of two numbers; `a` where they do not compare. -/
def larger (a b : α) : α := if less a b then b else a

/-- The positive part, zero for what is not a number. -/
def relu (x : α) : α := if less zero x then x else zero

def square (x : α) : α := x * x

def recip (x : α) : α := one / x

instance : Inhabited α := ⟨zero⟩

/-- Adds the products of entries at equal places to a number, left to right. -/
def addProducts (acc : α) : List α → List α → α
  | x :: xs, y :: ys => addProducts (acc + x * y) xs ys
  | _, _ => acc

/-- Takes the products of entries at equal places from a number, left to right. -/
def subProducts (acc : α) : List α → List α → α
  | x :: xs, y :: ys => subProducts (acc - x * y) xs ys
  | _, _ => acc

def dot (xs ys : List α) : α := addProducts zero xs ys

end Scalar

end SignalGraph
