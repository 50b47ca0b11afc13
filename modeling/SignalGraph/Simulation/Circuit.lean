import SignalGraph.Ensemble.Basic
import SignalGraph.Network.Basic

namespace SignalGraph

/-- Objects ready for stepping: handles have become places, time constants factors, and populations of
neurons are built. -/
inductive Part (α : Type) where
  | source (signal : Signal α)
  | linear (inputs : List Nat) (coefficients : List (Matrix α))
  | direct (input : Nat) (function : VectorFunction α) (size : Nat)
  | ensemble (input : Nat) (e : Ensemble α)
  | feedback (input : Nat) (integrand : Option Nat)
  | filter (input : Nat) (decay : α)
  | slice (input : Nat) (indices : List Nat)

/-- The parts whose values of the same step this one reads. -/
def Part.stepInputs {α : Type} : Part α → List Nat
  | .source _ | .feedback .. => []
  | .linear inputs _ => inputs
  | .direct input .. | .ensemble input _ | .filter input _ | .slice input _ => [input]

/-- A network ready for stepping. -/
structure Circuit (α : Type) where
  dt : α
  parts : Array (Part α)
  sizes : Array Nat
  probes : List Nat

/-- The values that each part puts out. -/
abbrev Values (α : Type) := Array (List α)

def Values.of {α : Type} (values : Values α) (i : Nat) : List α := values.getD i []

namespace Circuit

variable {α : Type} [Scalar α]

/-- The factor that a filter keeps of its value in one step. -/
def decay (dt tau : α) : α :=
  if Scalar.less Scalar.zero tau then Scalar.exp (-dt / tau) else Scalar.zero

/-- An object ready for stepping. -/
def part (dt : α) (place : Nat) (r : ObjectRecord α) : Except NetworkError (Part α) :=
  match r.object with
  | .source signal => .ok (.source signal)
  | .linear inputs coefficients => .ok (.linear (inputs.map (·.id)) coefficients)
  | .nonlinear input function params =>
    match params.neuronType with
    | .direct => .ok (.direct input.id function r.size)
    | .lifRate =>
      (Ensemble.build function input.size r.size params place).map (.ensemble input.id)
  | .feedback input integrand => .ok (.feedback input.id (integrand.map (·.id)))
  | .filter input tau => .ok (.filter input.id (decay dt tau))
  | .slice input indices => .ok (.slice input.id indices)

/-- The parts of objects from a place on. -/
def partsFrom (dt : α) (place : Nat) : List (ObjectRecord α) → Except NetworkError (List (Part α))
  | [] => .ok []
  | r :: rest => do
    let p ← part dt place r
    return p :: (← partsFrom dt (place + 1) rest)

def ofNetwork (net : Network α) (dt : α) : Except NetworkError (Circuit α) := do
  if !Scalar.less Scalar.zero dt || !Scalar.isFinite dt then
    throw (.invalidParameters (.timeStep (Scalar.text dt)))
  let parts ← partsFrom dt 0 net.objects.toList
  return ⟨dt, parts.toArray, net.objects.map (·.size), net.probes.toList.map (·.id)⟩

variable (c : Circuit α)

/-- All values zero. -/
def initial : Values α := c.sizes.map fun n => List.replicate n Scalar.zero

/-- The value of a part at time `t`. Feedback objects keep the value they have. -/
def evaluate (kernel : Kernel α) (t : α) (values : Values α) (place : Nat) :
    Except NetworkError (List α) :=
  match c.parts[place]? with
  | none => .ok []
  | some p =>
    match p with
    | .source signal => signal.sample place t
    | .linear inputs coefficients =>
      let start := List.replicate (c.sizes.getD place 0) Scalar.zero
      .ok ((inputs.zip coefficients).foldl (fun acc (i, m) => kernel m (values.of i) acc) start)
    | .direct input function size => checkOutput place size (function (values.of input))
    | .ensemble input e => .ok (e.evaluate (values.of input))
    | .feedback .. => .ok (values.of place)
    | .filter input decay =>
      .ok (List.zipWith (fun old new => old * decay + new * (Scalar.one - decay))
        (values.of place) (values.of input))
    | .slice input indices =>
      let source := (values.of input).toArray
      .ok (indices.map fun i => source.getD i Scalar.zero)

/-- Moves the state of a feedback object on by one step. -/
def advance (values : Values α) (place : Nat) : Values α :=
  match c.parts[place]? with
  | some (.feedback input integrand) =>
    let rate :=
      match integrand with
      | none => values.of input
      | some f => List.zipWith (· + ·) (values.of input) (values.of f)
    values.setIfInBounds place
      (List.zipWith (fun x r => x + c.dt * r) (values.of place) rate)
  | _ => values

/-- Moves all feedback states on, each one reading what those before it have become. -/
def advanceAll (values : Values α) : Values α :=
  (List.range c.parts.size).foldl c.advance values

end Circuit

end SignalGraph
