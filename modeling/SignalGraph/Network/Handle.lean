namespace SignalGraph

/-- The place of an object among those of its network, and how many values it puts out. -/
structure Handle where
  id : Nat
  size : Nat
deriving Repr, DecidableEq, Inhabited

def Handle.text (h : Handle) : String := s!"#{h.id}[{h.size}]"

/-- Parameters that a network or a simulator refuses. Numbers stand as messages write them. -/
inductive ParameterFault where
  | emptySource
  | matrixPerInput (inputs matrices : Nat)
  | emptyLinear
  | matrixShape (nrows ncols size rows : Nat)
  | emptyNonlinear
  | noNeurons
  | radius (value : String)
  | integrandSize (integrand feedback : Nat)
  | alreadyConnected (feedback : Handle)
  | notFeedback (handle : Handle) (kind : String)
  | filterTime (value : String)
  | emptySlice
  | sliceIndex (index size : Nat)
  | unknownNeuronType (name : String)
  | timeStep (value : String)
  | duration (value : String)
  | emptyEnsemble (object : Nat)
deriving Repr, DecidableEq

inductive UnsupportedFault where
  | partialConnections
  | objectLimit
  | custom (reason : String)
deriving Repr, DecidableEq

inductive SimulationFault where
  | noTrace (probe : Nat)
  | silentEnsemble (object : Nat)
  | custom (reason : String)
deriving Repr, DecidableEq

inductive NetworkError where
  | invalidHandle (id size : Nat)
  | invalidParameters (fault : ParameterFault)
  | invalidOutput (object expected actual : Nat)
  | unsupported (fault : UnsupportedFault)
  | invalidBackend (name : String)
  | simulationFailed (fault : SimulationFault)
deriving Repr, DecidableEq

def ParameterFault.message : ParameterFault → String
  | emptySource => "source must produce at least one value"
  | matrixPerInput inputs matrices =>
    s!"linear object needs one coefficient matrix per input (got {inputs} inputs, " ++
      s!"{matrices} matrices)"
  | emptyLinear => "linear object must have at least one output"
  | matrixShape nrows ncols size rows =>
    s!"coefficient matrix [{nrows}, {ncols}] does not map input of size {size} to {rows} outputs"
  | emptyNonlinear => "nonlinear object must have at least one output"
  | noNeurons => "n_neurons must be positive"
  | radius value => s!"radius must be positive, got {value}"
  | integrandSize integrand feedback =>
    s!"integrand of size {integrand} cannot drive feedback of size {feedback}"
  | alreadyConnected feedback => s!"feedback {feedback.text} is already connected"
  | notFeedback handle kind => s!"{handle.text} is a {kind} object, not feedback"
  | filterTime value => s!"filter time constant must be non-negative, got {value}"
  | emptySlice => "slice must select at least one index"
  | sliceIndex index size => s!"slice index {index} out of range for size {size}"
  | unknownNeuronType name => s!"unknown neuron type '{name}'"
  | timeStep value => s!"dt must be positive, got {value}"
  | duration value => s!"duration must be non-negative, got {value}"
  | emptyEnsemble object =>
    s!"ensemble for object {object} needs neurons and a non-empty input"

def UnsupportedFault.message : UnsupportedFault → String
  | partialConnections => "partial connections are not supported by this target"
  | objectLimit => "object limit reached"
  | custom reason => reason

def SimulationFault.message : SimulationFault → String
  | noTrace probe => s!"no trace recorded for probe {probe}"
  | silentEnsemble object =>
    s!"decoder solve failed for object {object}: no neuron is active over the evaluation points"
  | custom reason => reason

def NetworkError.message : NetworkError → String
  | invalidHandle id size =>
    s!"Invalid handle: object {id} (size {size}) does not exist in this network"
  | invalidParameters fault => "Invalid parameters: " ++ fault.message
  | invalidOutput object expected actual =>
    s!"Object {object} produced {actual} values, expected {expected}"
  | unsupported fault => "Unsupported operation: " ++ fault.message
  | invalidBackend name => "Invalid backend: " ++ name
  | simulationFailed fault => "Simulation failed: " ++ fault.message

end SignalGraph
