import SignalGraph.Settings.Basic
import SignalGraph.Text.Case

namespace SignalGraph

inductive SettingsProblem where
  | notOneOf (field value : String) (allowed : List String)
  | outOfRange (field requirement : String)
deriving Repr, DecidableEq

def SettingsProblem.message : SettingsProblem → String
  | notOneOf field value allowed =>
    s!"{field} = '{value}' is not one of " ++ "|".intercalate allowed
  | outOfRange field requirement => field ++ " " ++ requirement

namespace Settings

/-- A name that has to be one of a list, in small or capital letters. -/
def requireName (field value : String) (allowed : List String) : List SettingsProblem :=
  if allowed.contains (Text.lowercase value) then [] else [.notOneOf field value allowed]

def require (holds : Bool) (field requirement : String) : List SettingsProblem :=
  if holds then [] else [.outOfRange field requirement]

variable {α : Type} [Scalar α]

def problems (s : Settings α) : List SettingsProblem :=
  requireName "simulation.backend" s.simulation.backend ["cpu", "reference", "batched", "gpu"] ++
  requireName "simulation.time_axis" s.simulation.timeAxis ["leading", "trailing"] ++
  require (Scalar.less Scalar.zero s.simulation.dt) "simulation.dt" "must be positive" ++
  require (0 < s.defaults.neuronCount) "defaults.n_neurons" "must be positive" ++
  require (Scalar.less Scalar.zero s.defaults.radius) "defaults.radius" "must be positive" ++
  require (0 ≤ s.defaults.seed) "defaults.seed" "must not be negative" ++
  require (Scalar.atMost Scalar.zero s.defaults.synapse) "defaults.synapse"
    "must not be negative" ++
  requireName "defaults.neuron_type" s.defaults.neuronType ["direct", "lif_rate"] ++
  requireName "logging.level" s.logging.level ["trace", "debug", "info", "warn", "error"] ++
  requireName "logging.format" s.logging.format ["text", "json"]

end Settings

end SignalGraph
