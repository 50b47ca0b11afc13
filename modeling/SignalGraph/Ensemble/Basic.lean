import SignalGraph.Ensemble.Random
import SignalGraph.Ensemble.Ridge
import SignalGraph.Network.Object

namespace SignalGraph

section

variable {α : Type} [Scalar α]

/-- The membrane time constant, in seconds. -/
def tauMembrane : α := Scalar.ratio 2 100

/-- The refractory period, in seconds. -/
def tauRefractory : α := Scalar.ratio 2 1000

/-- The steady firing rate at an input current, none up to the threshold 1. -/
def lifRate (j : α) : α :=
  if Scalar.less Scalar.one j then
    Scalar.one / (tauRefractory + tauMembrane * Scalar.logOnePlus (Scalar.one / (j - Scalar.one)))
  else Scalar.zero

end

structure Neuron (α : Type) where
  encoder : List α
  gain : α
  bias : α

/-- Neurons that answer to points of the unit ball. -/
structure Population (α : Type) where
  /-- The direction of each neuron, one row per neuron. -/
  encoders : Matrix α
  gain : Vector α encoders.nrows
  bias : Vector α encoders.nrows

/-- A population and the decoders that put a function together from its rates. -/
structure Ensemble (α : Type) extends Population α where
  radius : α
  /-- One row per neuron. -/
  decoders : Matrix α

/-- How many points a function is approximated on. -/
def evaluationPoints : Nat := 750

/-- The generator seed of an object's ensemble. -/
def mixSeed (seed object : UInt64) : UInt64 := seed ^^^ ((object + 1) * 0x9E3779B97F4A7C15)

variable {α : Type} [Scalar α]

namespace Population

/-- The neurons one by one. -/
def neurons (u : Population α) : List (Neuron α) :=
  (List.finRange u.encoders.nrows).map fun (i : Fin _) => ⟨u.encoders.row i, u.gain[i], u.bias[i]⟩

/-- The input currents at points of the unit ball, the points being the rows: the products with all
directions at once, scaled and shifted row by row. -/
def currentsAt (u : Population α) (points : Matrix α) : Matrix α :=
  ((points.mul u.encoders.transpose).zipRows (· * ·) u.gain).zipRows (· + ·) u.bias

/-- The firing rates of all neurons at points of the unit ball, one row per point. -/
def activities (u : Population α) (points : Matrix α) : Matrix α := (u.currentsAt points).map lifRate

end Population

namespace Ensemble

/-- Gain and bias of a neuron that is silent at the intercept and fires at `maxRate` at 1. -/
def tuning (maxRate intercept : α) : α × α :=
  let z := (Scalar.one / maxRate - tauRefractory) / tauMembrane
  let peak := Scalar.one + Scalar.one / Scalar.expMinusOne z
  let gain := (peak - Scalar.one) / (Scalar.one - intercept)
  (gain, Scalar.one - gain * intercept)

def drawTuning : Draw (α × α) := do
  let maxRate ← Draw.between (Scalar.ofNat 200) (Scalar.ofNat 400) Draw.attempts
  let limit : α := Scalar.ratio 95 100
  let intercept ← Draw.between (-limit) limit Draw.attempts
  return tuning maxRate intercept

/-- A point of the unit ball: a direction, at a distance that fills the ball evenly. -/
def drawPoint (dims : Nat) : Draw (List α) := do
  let distance := Scalar.pow (← Draw.unit) (Scalar.one / Scalar.ofNat dims)
  let v ← Draw.direction dims Draw.attempts
  return v.map (· * distance)

/-- Neurons and evaluation points, the directions of all neurons being drawn first. -/
def drawPopulation (count dims : Nat) : Draw (Population α × Matrix α) := do
  let directions ← (List.replicate count ()).mapM fun _ => Draw.direction dims Draw.attempts
  let tunings ← (Vector.replicate count ()).mapM fun _ => drawTuning
  let points ← (List.replicate evaluationPoints ()).mapM fun _ => drawPoint dims
  let encoders := Matrix.ofLists count dims directions
  return (⟨encoders, tunings.map (·.1), tunings.map (·.2)⟩,
    .ofLists evaluationPoints dims points)

/-- The function at points of the ball of a radius, one row per point. -/
def targets (function : VectorFunction α) (radius : α) (size object : Nat) (points : Matrix α) :
    Except NetworkError (Matrix α) := do
  let rows ← points.rows.mapM fun p =>
    checkOutput object size (function (p.map (· * radius)))
  return .ofLists points.nrows size rows

/-- The ensemble of an object, reproducible from its seed and place. -/
def build (function : VectorFunction α) (inputSize size : Nat) (params : NonlinearParams α)
    (object : Nat) : Except NetworkError (Ensemble α) := do
  if params.neuronCount = 0 || inputSize = 0 then
    throw (.invalidParameters (.emptyEnsemble object))
  let generator := Generator.ofSeed (mixSeed params.seed (UInt64.ofNat object))
  let (population, points) := (drawPopulation params.neuronCount inputSize generator).1
  let wanted ← targets function params.radius size object points
  match Ridge.solve (population.activities points) wanted with
  | some decoders => return ⟨population, params.radius, decoders⟩
  | none => throw (.simulationFailed (.silentEnsemble object))

/-- The input currents at an input. -/
def currents (e : Ensemble α) (x : List α) : List α :=
  let p := x.map (· / e.radius)
  let products := e.encoders.rows.map (Scalar.dot · p)
  List.zipWith (· + ·) (List.zipWith (· * ·) products e.gain.toList) e.bias.toList

/-- The firing rates at an input. -/
def rates (e : Ensemble α) (x : List α) : List α := (e.currents x).map lifRate

/-- The decoded function at an input. -/
def evaluate (e : Ensemble α) (x : List α) : List α :=
  let rates := e.rates x
  (List.range e.decoders.ncols).map fun k => Scalar.dot (e.decoders.column k) rates

end Ensemble

end SignalGraph
