import SignalGraph.Shape

namespace SignalGraph

/-- Arguments that an operation refuses. -/
inductive ArgumentFault where
  | expectsOne
  | expectsTwo
  | notUnary
  | divisionByZero
  | noGraphOperand
  | expectedGraph
  | operandCount (count : Nat)
  | emptyAxis
  | operandAndWeights
  | weightsRank
  | noAxis
  | expectsSome
  | operandAndMatrix
  | matrixRank
  | notInt (key type : String)
  | notFloat (key type : String)
  | negativeTime (value : String)
  | numericOperand (shape : Shape)
  | custom (reason : String)
deriving Repr, DecidableEq

inductive DispatchError where
  | noImplementation (op : String)
  | allDeclined (op : String) (handlers : Nat)
  | badArguments (op : String) (fault : ArgumentFault)
  /-- Handlers that went on dispatching without end. -/
  | endless (op : String)
deriving Repr, DecidableEq

inductive GraphError where
  | shape (e : ShapeError)
  | dispatch (e : DispatchError)
  /-- A node that the graph does not hold. -/
  | foreignNode
deriving Repr, DecidableEq

def ArgumentFault.message : ArgumentFault → String
  | expectsOne => "expects one operand"
  | expectsTwo => "expects two operands"
  | notUnary => "not a unary operation"
  | divisionByZero => "division by zero"
  | noGraphOperand => "no graph operand at this position"
  | expectedGraph => "expected a graph operand"
  | operandCount count => s!"unexpected number of operands ({count})"
  | emptyAxis => "cannot reduce an empty axis"
  | operandAndWeights => "expects an operand and weights"
  | weightsRank => "weights must be a 1-D numeric array"
  | noAxis => "operand has no axis to contract"
  | expectsSome => "expects at least one operand"
  | operandAndMatrix => "expects an operand and a matrix"
  | matrixRank => "matrix must be 2-D"
  | notInt key type => s!"'{key}' must be an int, got {type}"
  | notFloat key type => s!"'{key}' must be a float, got {type}"
  | negativeTime value => s!"time constant must be non-negative, got {value}"
  | numericOperand shape => s!"expected a graph operand, got numeric {listText shape}"
  | custom reason => reason

def DispatchError.message : DispatchError → String
  | noImplementation op => s!"No implementation registered for '{op}'"
  | allDeclined op handlers => s!"All {handlers} handler(s) for '{op}' declined these operands"
  | badArguments op fault => s!"Bad arguments to '{op}': {fault.message}"
  | endless op => s!"Handlers for '{op}' dispatch without end"

def GraphError.message : GraphError → String
  | shape e => "Shape error: " ++ e.message
  | dispatch e => "Dispatch error: " ++ e.message
  | foreignNode => "Node does not belong to this graph"

namespace GraphError

def invalid (fault : ShapeFault) : GraphError := .shape (.invalid fault)

def sizeMismatch (op : String) (expected actual : Nat) : GraphError :=
  .shape (.sizeMismatch op expected actual)

def badArguments (op : String) (fault : ArgumentFault) : GraphError :=
  .dispatch (.badArguments op fault)

end GraphError

end SignalGraph
