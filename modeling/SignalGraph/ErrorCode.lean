import SignalGraph.Logging.Format
import SignalGraph.Run.Options
import SignalGraph.Settings.Load

namespace SignalGraph

def ShapeError.code : ShapeError → String
  | broadcast .. => "Shape.Broadcast"
  | sizeMismatch .. => "Shape.SizeMismatch"
  | axisOutOfBounds .. => "Shape.AxisOutOfBounds"
  | invalid _ => "Shape.Invalid"

def DispatchError.code : DispatchError → String
  | noImplementation _ => "Dispatch.NoImplementation"
  | allDeclined .. => "Dispatch.AllDeclined"
  | badArguments .. => "Dispatch.BadArguments"
  | endless _ => "Dispatch.Endless"

def GraphError.code : GraphError → String
  | shape e => "Graph." ++ e.code
  | dispatch e => "Graph." ++ e.code
  | foreignNode => "Graph.ForeignNode"

def ParamError.code : ParamError → String
  | unknownParameter .. => "Configuration.UnknownParameter"
  | invalidValue .. => "Configuration.InvalidValue"
  | missingValue .. => "Configuration.MissingValue"

def NetworkError.code : NetworkError → String
  | invalidHandle .. => "Runtime.InvalidHandle"
  | invalidParameters _ => "Runtime.InvalidParameters"
  | invalidOutput .. => "Runtime.InvalidOutput"
  | unsupported _ => "Runtime.Unsupported"
  | invalidBackend _ => "Runtime.InvalidBackend"
  | simulationFailed _ => "Runtime.SimulationFailed"

def RealizeError.code : RealizeError → String
  | params e => "Make." ++ e.code
  | network e => "Make.Materialization." ++ e.code
  | poisoned => "Make.Materialization.ContextPoisoned"
  | unboundState => "Make.Materialization.UnboundState"
  | sizeMismatch .. => "Make.Materialization.SizeMismatch"
  | foreignNode => "Make.Materialization.ForeignNode"

def RunError.code : RunError → String
  | realize e => "Run." ++ e.code
  | graph e => "Run." ++ e.code
  | network e => "Run." ++ e.code
  | invalidOptions _ => "Run.InvalidOptions"

def SettingsError.code : SettingsError → String
  | missingFile _ | notFound _ => "Config.NotFound"
  | unreadable => "Config.Io"
  | malformed => "Config.Parse"
  | rejected _ => "Config.Invalid"

def LogFormatError.code : LogFormatError → String := fun _ => "LogFormat"

/-- Errors with a code and a wording. -/
class CodedError (ε : Type) where
  code : ε → String
  message : ε → String

instance : CodedError ShapeError := ⟨ShapeError.code, ShapeError.message⟩
instance : CodedError GraphError := ⟨GraphError.code, GraphError.message⟩
instance : CodedError ParamError := ⟨ParamError.code, ParamError.message⟩
instance : CodedError NetworkError := ⟨NetworkError.code, NetworkError.message⟩
instance : CodedError RealizeError := ⟨RealizeError.code, RealizeError.message⟩
instance : CodedError RunError := ⟨RunError.code, RunError.message⟩
instance : CodedError SettingsError := ⟨SettingsError.code, SettingsError.message⟩
instance : CodedError LogFormatError := ⟨LogFormatError.code, LogFormatError.message⟩

end SignalGraph
