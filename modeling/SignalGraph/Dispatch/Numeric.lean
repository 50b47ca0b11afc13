import SignalGraph.Operand.Broadcast

namespace SignalGraph.Numeric

variable {α : Type} [Scalar α]

def unary? (name : String) : Option (α → α) :=
  match name with
  | "negative" => some (-·)
  | "sin" => some Scalar.sin
  | "cos" => some Scalar.cos
  | "tanh" => some Scalar.tanh
  | "exp" => some Scalar.exp
  | "abs" => some Scalar.abs
  | "square" => some Scalar.square
  | "sqrt" => some Scalar.sqrt
  | "relu" => some Scalar.relu
  | _ => none

def binary? (name : String) : Option (α → α → α) :=
  match name with
  | "add" => some (· + ·)
  | "subtract" => some (· - ·)
  | "multiply" => some (· * ·)
  | "divide" => some (· / ·)
  | "power" => some Scalar.pow
  | _ => none

/-- Two arrays stretched to their common shape and joined position by position. -/
def zip (f : α → α → α) (a b : NDArray α) : Except GraphError (NDArray α) := do
  match Shape.broadcast a.shape b.shape with
  | .error e => throw (.shape e)
  | .ok s =>
    match a.spread? s, b.spread? s with
    | some a, some b => return .tabulate s fun i => f (a.entry i) (b.entry i)
    | _, _ => throw (.invalid (.cannotSpreadBoth a.shape b.shape))

/-- The operation on operands without nodes. -/
def apply (name : String) (operands : List (Operand α)) : Except GraphError (Operand α) :=
  match operands.filterMap Operand.toNumeric?, unary? name, binary? name with
  | [x], some f, _ => .ok (.ofNumeric (x.map f))
  | [a, b], _, some f => .ofNumeric <$> zip f a b
  | _, none, none => .error (.dispatch (.noImplementation name))
  | _, _, _ => .error (.badArguments name (.operandCount operands.length))

end SignalGraph.Numeric
