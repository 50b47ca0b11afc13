import SignalGraph.Config.Defaults

namespace SignalGraph

structure SimulationSettings (α : Type) where
  backend : String
  /-- The time step, in seconds. -/
  dt : α
  timeAxis : String

structure LoggingSettings where
  level : String
  format : String
  /-- The names of what is logged in detail. -/
  debugTargets : List String

structure Settings (α : Type) where
  simulation : SimulationSettings α
  defaults : BuildSettings α
  logging : LoggingSettings

def SimulationSettings.standard {α : Type} [Scalar α] : SimulationSettings α :=
  ⟨"cpu", Scalar.ratio 1 1000, "trailing"⟩

def LoggingSettings.standard : LoggingSettings := ⟨"info", "text", []⟩

def Settings.standard {α : Type} [Scalar α] : Settings α := ⟨.standard, .standard, .standard⟩

end SignalGraph
