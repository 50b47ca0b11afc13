import SignalGraph.Scalar.Float
import SignalGraph.Settings.Basic
import SignalGraph.Toml.Document

namespace SignalGraph

namespace Toml

/-- The name that a date's text stands under where a table is expected. -/
def dateKey : String := "$__toml_private_datetime"

namespace Value

/-- The entries of a table. -/
def entries? : Value → Option (List (String × Value))
  | table _ es => some es
  | date s => some [(dateKey, text s)]
  | _ => none

/-- The entries of a section with the given names. A list sets them in their order. -/
def fields? (names : List String) : Value → Option (List (String × Value))
  | array items => some (names.zip items)
  | tables items => some (names.zip (items.map (table .header)))
  | v => v.entries?

def toText? : Value → Option String
  | text s => some s
  | _ => none

def toInt? : Value → Option Int
  | int i => some i
  | _ => none

/-- Whole numbers count as numbers. -/
def toFloat? : Value → Option Float
  | float x => some x
  | int i => some (Scalar.ofInt i)
  | _ => none

def toTexts? : Value → Option (List String)
  | array items => items.mapM toText?
  | _ => none

def toParam? : Value → Option (ParamValue Float)
  | text s => some (.text s)
  | int i => some (.int i)
  | float x => some (.float x)
  | bool b => some (.bool b)
  | _ => none

end Value

/-- The value under a name, or the standard one; nothing if it is of another type. -/
def field {β : Type} (entries : List (String × Value)) (name : String) (read : Value → Option β)
    (standard : β) : Option β :=
  match entries.lookup name with
  | some v => read v
  | none => some standard

end Toml

open Toml (field)

def SimulationSettings.ofValue? (v : Toml.Value) : Option (SimulationSettings Float) := do
  let s : SimulationSettings Float := .standard
  let es ← v.fields? ["backend", "dt", "time_axis"]
  return {
    backend := ← field es "backend" Toml.Value.toText? s.backend
    dt := ← field es "dt" Toml.Value.toFloat? s.dt
    timeAxis := ← field es "time_axis" Toml.Value.toText? s.timeAxis }

def LoggingSettings.ofValue? (v : Toml.Value) : Option LoggingSettings := do
  let s := LoggingSettings.standard
  let es ← v.fields? ["level", "format", "debug_crates"]
  return {
    level := ← field es "level" Toml.Value.toText? s.level
    format := ← field es "format" Toml.Value.toText? s.format
    debugTargets := ← field es "debug_crates" Toml.Value.toTexts? s.debugTargets }

namespace BuildSettings

/-- The names with a place of their own in the defaults section. -/
def names : List String := ["n_neurons", "radius", "neuron_type", "seed", "synapse"]

def ofValue? (v : Toml.Value) : Option (BuildSettings Float) := do
  let s : BuildSettings Float := .standard
  let es ← v.entries?
  let extra ← (es.filter (!names.contains ·.1)).mapM fun (key, v) => do return (key, ← v.toParam?)
  return {
    neuronCount := ← field es "n_neurons" Toml.Value.toInt? s.neuronCount
    radius := ← field es "radius" Toml.Value.toFloat? s.radius
    neuronType := ← field es "neuron_type" Toml.Value.toText? s.neuronType
    seed := ← field es "seed" Toml.Value.toInt? s.seed
    synapse := ← field es "synapse" Toml.Value.toFloat? s.synapse
    extra := KeyMap.ofList extra }

end BuildSettings

namespace Settings

def ofTable? (t : Toml.Table) : Option (Settings Float) := do
  let s : Settings Float := .standard
  return {
    simulation := ← field t.entries "simulation" SimulationSettings.ofValue? s.simulation
    defaults := ← field t.entries "defaults" BuildSettings.ofValue? s.defaults
    logging := ← field t.entries "logging" LoggingSettings.ofValue? s.logging }

/-- The settings that a document writes. -/
def ofText? (s : String) : Option (Settings Float) := (Toml.parse s).bind ofTable?

end Settings

end SignalGraph
