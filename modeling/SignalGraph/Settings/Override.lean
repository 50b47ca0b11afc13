import SignalGraph.Scalar.Float
import SignalGraph.Settings.Basic
import SignalGraph.Text.Numeral

namespace SignalGraph

/-- Names with texts. -/
abbrev Assignments := List (String × String)

namespace Settings

def override (s : Settings Float) (key value : String) : Settings Float :=
  match key with
  | "backend" => { s with simulation.backend := value }
  | "time_axis" => { s with simulation.timeAxis := value }
  | "log_level" => { s with logging.level := value }
  | "neuron_type" => { s with defaults.neuronType := value }
  | "dt" => { s with simulation.dt := (Text.readFloat value).getD s.simulation.dt }
  | "seed" => { s with defaults.seed := (Text.readInt value).getD s.defaults.seed }
  | "n_neurons" =>
    { s with defaults.neuronCount := (Text.readInt value).getD s.defaults.neuronCount }
  | _ => s

/-- The environment variables that override a setting, and the setting. -/
def environmentKeys : List (String × String) :=
  [("GYRUS_BACKEND", "backend"), ("GYRUS_DT", "dt"), ("GYRUS_LOG_LEVEL", "log_level"),
    ("GYRUS_SEED", "seed"), ("GYRUS_NEURON_TYPE", "neuron_type")]

def overrideByEnvironment (environment : Assignments) (s : Settings Float) : Settings Float :=
  environmentKeys.foldl (fun s (name, key) =>
    match environment.lookup name with
    | some value => s.override key value
    | none => s) s

def overrideByArguments (arguments : Assignments) (s : Settings Float) : Settings Float :=
  arguments.foldl (fun s (key, value) => s.override key value) s

end Settings

end SignalGraph
