import SignalGraph.Config.Value

namespace SignalGraph

/-- The build section of the settings: the parameters of the built-in kinds, and others by name. -/
structure BuildSettings (α : Type) where
  neuronCount : Int
  radius : α
  neuronType : String
  seed : Int
  synapse : α
  extra : Params α

abbrev Defaults (α : Type) := Params α

namespace BuildSettings

variable {α : Type}

def standard [Scalar α] : BuildSettings α :=
  ⟨100, Scalar.one, "direct", 0, Scalar.ratio 5 1000, .empty⟩

/-- The parameters in their order: the built-in ones, then the others by name. -/
def entries (b : BuildSettings α) : List (String × ParamValue α) :=
  [("n_neurons", .int b.neuronCount), ("radius", .float b.radius),
    ("neuron_type", .text b.neuronType), ("seed", .int b.seed), ("synapse", .float b.synapse)] ++
    b.extra.entries

end BuildSettings

namespace Defaults

variable {α : Type}

def ofSettings (b : BuildSettings α) : Defaults α := KeyMap.ofList b.entries

def standard [Scalar α] : Defaults α := ofSettings BuildSettings.standard

end Defaults

end SignalGraph
