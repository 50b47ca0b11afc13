import SignalGraph.Element.Basic

namespace SignalGraph.Element

variable {α : Type}

/-- The size of the only input. -/
def singleInput (kind : String) : List Nat → Except GraphError Nat
  | [size] => .ok size
  | sizes => .error (.invalid (.inputCount kind sizes.length))

/-- A lowering of the first input. -/
def withInput (inputs : List Handle) (next : Handle → Lowering α) : Lowering α :=
  match inputs with
  | input :: _ => next input
  | [] => .fail .unboundState

def stimulus (signal : Signal α) : Element α where
  name := "stimulus"
  configurable := []
  sizeOut sizes := if sizes.isEmpty then .ok signal.size else .error (.invalid .stimulusInputs)
  lower _ _ := .object (.source signal)

/-- Whether each matrix has the width of its input and the height of the first. -/
def checkMatrices (rows : Nat) : List (Matrix α × Nat) → Except GraphError Unit
  | [] => .ok ()
  | (m, size) :: rest => do
    if m.ncols ≠ size then throw (.sizeMismatch "transform" m.ncols size)
    if m.nrows ≠ rows then throw (.sizeMismatch "transform" rows m.nrows)
    checkMatrices rows rest

/-- The sum of the inputs, each times its matrix. -/
def transform (matrices : List (Matrix α)) : Element α where
  name := "transform"
  configurable := []
  sizeOut sizes := do
    if sizes.length ≠ matrices.length || sizes.isEmpty then
      throw (.invalid (.matrixCount matrices.length sizes.length))
    let rows := Network.outputCount matrices
    checkMatrices rows (matrices.zip sizes)
    return rows
  lower inputs _ := .object (.linear inputs matrices)

/-- A function of the input, as given or approximated by neurons. -/
def decode [Scalar α] (function : VectorFunction α) (size : Nat) : Element α where
  name := "decode"
  configurable := ["n_neurons", "radius", "neuron_type", "seed"]
  sizeOut sizes := do
    discard <| singleInput "decode" sizes
    return size
  lower inputs config :=
    .ofExcept (config.text "neuron_type") fun name =>
    .ofExcept (config.nat "n_neurons") fun neuronCount =>
    .ofExcept (config.scalar "radius") fun radius =>
    match NeuronType.ofText? name with
    | .error _ =>
      .fail (.params (.invalidValue "neuron_type" "\"direct\" or \"lif_rate\"" name))
    | .ok neuronType =>
      .ofExcept (config.nat "seed") fun seed =>
      withInput inputs fun input =>
        .object (.nonlinear input function size
          ⟨neuronCount, radius, neuronType, UInt64.ofNat seed⟩)

/-- The components of the input at some indices. A target without slices selects them by a matrix. -/
def slice [Scalar α] (indices : List Nat) : Element α where
  name := "slice"
  configurable := []
  sizeOut sizes := do
    let size ← singleInput "slice" sizes
    match indices.find? (size ≤ ·) with
    | some bad => throw (.invalid (.sliceIndex bad size))
    | none => return indices.length
  lower inputs _ :=
    withInput inputs fun input =>
      .partialConnections fun available =>
        if available then .object (.slice input indices)
        else .object (.linear [input] [.selection indices input.size])

/-- Blocks of the identity that put inputs of the given sizes one behind the other. -/
def bundleBlocks [Scalar α] (total : Nat) : Nat → List Nat → List (Matrix α)
  | _, [] => []
  | start, size :: sizes => .block total start size :: bundleBlocks total (start + size) sizes

/-- The inputs one behind the other. -/
def bundle [Scalar α] : Element α where
  name := "bundle"
  configurable := []
  sizeOut sizes :=
    if sizes.isEmpty then .error (.invalid .emptyBundle) else .ok (Shape.wordTotal sizes)
  lower inputs _ :=
    let sizes := inputs.map Handle.size
    .object (.linear inputs (bundleBlocks (Shape.wordTotal sizes) 0 sizes))

/-- The input smoothed over time. -/
def filter [Scalar α] : Element α where
  name := "filter"
  configurable := ["synapse"]
  sizeOut := singleInput "filter"
  lower inputs config :=
    .ofExcept (config.scalar "synapse") fun tau =>
    withInput inputs fun input => .object (.filter input tau)

/-- The input itself, under other parameters. -/
def configure : Element α where
  name := "configure"
  configurable := []
  sizeOut := singleInput "configure"
  lower inputs _ := withInput inputs .done

end SignalGraph.Element
