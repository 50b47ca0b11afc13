import SignalGraph.Network.Basic
import SignalGraph.Operand.Basic
import SignalGraph.Text.Listing
import SignalGraph.Text.Number
import SignalGraph.Text.Quoted

namespace SignalGraph

open Text (listing wrapped record exactText)

def Handle.listed (h : Handle) : String :=
  record "Handle" [("id", toString h.id), ("size", toString h.size)] false

def Signal.listed : Signal Float → String
  | constant values => wrapped "Constant" (listing (values.map exactText))
  | timed size _ => record "Function" [("size", toString size)] true

def NeuronType.listed : NeuronType → String
  | direct => "Direct"
  | lifRate => "LifRate"

def NonlinearParams.listed (p : NonlinearParams Float) : String :=
  record "NonlinearParams"
    [("n_neurons", toString p.neuronCount), ("radius", exactText p.radius),
      ("neuron_type", p.neuronType.listed), ("seed", toString p.seed)] false

def NetworkObject.listed : NetworkObject Float → String
  | source signal => wrapped "Source" signal.listed
  | linear inputs _ => record "Linear" [("inputs", listing (inputs.map Handle.listed))] true
  | nonlinear input _ params =>
    record "Nonlinear" [("input", input.listed), ("params", params.listed)] true
  | feedback input integrand =>
    let integrand := integrand.elim "None" fun h => wrapped "Some" h.listed
    record "Feedback" [("input", input.listed), ("integrand", integrand)] false
  | filter input tau => record "Filter" [("input", input.listed), ("tau", exactText tau)] false
  | slice input indices =>
    record "Slice" [("input", input.listed), ("indices", listing (indices.map toString))] false

/-- A node by its kind and size. -/
def Graph.nodeText {α : Type} (g : Graph α) (n : Node) : String :=
  s!"Node({g.kindOf n}, size={g.sizeOf n})"

/-- An array of nodes by its shape. -/
def Operand.foldText (f : Fold) : String := s!"Fold(shape={listText f.shape})"

/-- An element that is applied position by position. -/
def Element.vectorizedText {α : Type} (e : Element α) : String :=
  record "Vectorized" [("element", Text.quoted e.name)] false

end SignalGraph
