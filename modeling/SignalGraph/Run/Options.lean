import SignalGraph.Element.Basic
import SignalGraph.Settings.Basic
import SignalGraph.Simulation.Backend

namespace SignalGraph

/-- Where the time axis stands in the answer of a run. -/
inductive TimeAxis where
  | leading
  | trailing
deriving Repr, DecidableEq

inductive OptionFault where
  | unknownTimeAxis (name : String)
  | timeStep (value : String)
  | duration (value : String)
deriving Repr, DecidableEq

inductive RunError where
  | realize (e : RealizeError)
  | graph (e : GraphError)
  | network (e : NetworkError)
  | invalidOptions (fault : OptionFault)
deriving Repr, DecidableEq

def OptionFault.message : OptionFault → String
  | unknownTimeAxis name => s!"unknown time axis '{name}' (expected 'leading' or 'trailing')"
  | timeStep value => s!"dt must be positive, got {value}"
  | duration value => s!"duration must be non-negative, got {value}"

def RunError.message : RunError → String
  | realize e => e.message
  | graph e => e.message
  | network e => "Runtime error: " ++ e.message
  | invalidOptions fault => "Invalid run options: " ++ fault.message

namespace TimeAxis

def text : TimeAxis → String
  | leading => "leading"
  | trailing => "trailing"

def ofText? (s : String) : Except RunError TimeAxis :=
  let name := Text.lowercase s
  if name = "leading" || name = "first" then .ok .leading
  else if name = "trailing" || name = "last" then .ok .trailing
  else .error (.invalidOptions (.unknownTimeAxis name))

end TimeAxis

structure RunOptions (α : Type) where
  duration : α
  dt : α
  backend : Backend
  timeAxis : TimeAxis

namespace RunOptions

variable {α : Type} [Scalar α]

/-- One second in steps of a millisecond. -/
def standard : RunOptions α := ⟨Scalar.one, Scalar.ratio 1 1000, .cpu, .trailing⟩

/-- The options that the simulation settings ask for, over the standard duration. -/
def ofSettings (s : SimulationSettings α) : Except RunError (RunOptions α) := do
  let backend ← (Backend.ofText? s.backend).mapError .network
  let timeAxis ← TimeAxis.ofText? s.timeAxis
  return ⟨standard.duration, s.dt, backend, timeAxis⟩

def check (o : RunOptions α) : Except RunError Unit :=
  if !Scalar.less Scalar.zero o.dt || !Scalar.isFinite o.dt then
    .error (.invalidOptions (.timeStep (Scalar.text o.dt)))
  else if !Scalar.atMost Scalar.zero o.duration || !Scalar.isFinite o.duration then
    .error (.invalidOptions (.duration (Scalar.text o.duration)))
  else .ok ()

end RunOptions

end SignalGraph
