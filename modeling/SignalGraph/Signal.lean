import SignalGraph.Scalar
import SignalGraph.Network.Handle

namespace SignalGraph

/-- A function between lists of values. -/
abbrev VectorFunction (α : Type) := List α → List α

/-- Values that stay, or a function of time with the number of values it announces. -/
inductive Signal (α : Type) where
  | constant (values : List α)
  | timed (size : Nat) (function : α → List α)

/-- An answer of the length that its object has. -/
def checkOutput {α : Type} (object expected : Nat) (values : List α) :
    Except NetworkError (List α) :=
  if values.length = expected then .ok values
  else .error (.invalidOutput object expected values.length)

namespace Signal

variable {α : Type}

def size : Signal α → Nat
  | constant values => values.length
  | timed size _ => size

/-- The values at time `t`, asked for by object `object`. -/
def sample (object : Nat) (t : α) : Signal α → Except NetworkError (List α)
  | constant values => .ok values
  | timed size function => checkOutput object size (function t)

end Signal

end SignalGraph
