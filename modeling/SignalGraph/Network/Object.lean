import SignalGraph.Matrix
import SignalGraph.Signal
import SignalGraph.Text.Case

namespace SignalGraph

/-- How a nonlinear object computes its function: as given, or by a population of neurons. -/
inductive NeuronType where
  | direct
  | lifRate
deriving Repr, DecidableEq

def NeuronType.text : NeuronType → String
  | direct => "direct"
  | lifRate => "lif_rate"

def NeuronType.ofText? (s : String) : Except NetworkError NeuronType :=
  let name := Text.lowercase s
  if name = "direct" then .ok .direct
  else if name = "lif_rate" || name = "lifrate" then .ok .lifRate
  else .error (.invalidParameters (.unknownNeuronType name))

structure NonlinearParams (α : Type) where
  neuronCount : Nat
  radius : α
  neuronType : NeuronType
  seed : UInt64

def NonlinearParams.standard {α : Type} [Scalar α] : NonlinearParams α :=
  ⟨100, Scalar.one, .direct, 0⟩

inductive NetworkObject (α : Type) where
  | source (signal : Signal α)
  | linear (inputs : List Handle) (coefficients : List (Matrix α))
  | nonlinear (input : Handle) (function : VectorFunction α) (params : NonlinearParams α)
  | feedback (input : Handle) (integrand : Option Handle)
  | filter (input : Handle) (tau : α)
  | slice (input : Handle) (indices : List Nat)

namespace NetworkObject

variable {α : Type}

def kind : NetworkObject α → String
  | source _ => "source"
  | linear .. => "linear"
  | nonlinear .. => "nonlinear"
  | feedback .. => "feedback"
  | filter .. => "filter"
  | slice .. => "slice"

/-- The objects whose values of the same step this one reads. -/
def stepInputs : NetworkObject α → List Handle
  | source _ | feedback .. => []
  | linear inputs _ => inputs
  | nonlinear input .. | filter input _ | slice input _ => [input]

end NetworkObject

end SignalGraph
