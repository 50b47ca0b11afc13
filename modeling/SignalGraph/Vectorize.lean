import SignalGraph.Dispatch.Registry
import SignalGraph.Graph.Construct

namespace SignalGraph.Element

variable {α : Type} [Scalar α]

/-- The node that feeds an element from one position: a number becomes a constant stimulus. -/
def inputNode : Cell α → Build α Node
  | .node n => return n
  | .scalar c => Build.stimulus (.constant [c])

/-- A node of the element per position of the common shape of the operands. -/
def vectorized (e : Element α) (operands : List (Operand α)) (explicit : Params α) :
    Build α (Operand α) :=
  Operand.broadcastMap operands fun cells => do
    Build.element e (← cells.mapM inputNode) explicit

/-- The element as a handler, which declines operands without nodes. -/
def handler (e : Element α) : Handler α := fun _ operands params => do
  if operands.any Operand.isGraph then some <$> e.vectorized operands params
  else return none

end SignalGraph.Element
