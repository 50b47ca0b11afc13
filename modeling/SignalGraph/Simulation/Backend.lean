import SignalGraph.Simulation.Simulator

namespace SignalGraph

/-- The backends by name. -/
inductive Backend where
  | cpu
  | batched
deriving Repr, DecidableEq

namespace Backend

def text : Backend → String
  | cpu => "cpu"
  | batched => "batched"

def ofText? (s : String) : Except NetworkError Backend :=
  let name := Text.lowercase s
  if name = "cpu" || name = "reference" then .ok .cpu
  else if name = "batched" || name = "gpu" then .ok .batched
  else .error (.invalidBackend s)

end Backend

/-- What makes a simulator of a network. -/
structure Engine (α : Type) where
  name : String
  build : Network α → α → Except NetworkError (Simulator α)

variable {α : Type} [Scalar α]

/-- One object after the other, or level by level with blocked sums. -/
def Backend.engine (b : Backend) : Engine α where
  name := b.text
  build net dt := do
    let c ← Circuit.ofNetwork net dt
    match b with
    | .cpu => return .start c .sequential c.oneByOne
    | .batched => return .start c .blocked c.levels

omit [Scalar α] in
/-- An engine that makes no simulator. -/
def Engine.unavailable (name reason : String) : Engine α where
  name
  build _ _ := .error (.simulationFailed (.custom reason))

/-- A recording of a network over a duration, in steps of `dt`. -/
def Engine.simulate (e : Engine α) (net : Network α) (duration dt : α) :
    Except NetworkError (Recording α) := do
  if !Scalar.atMost Scalar.zero duration || !Scalar.isFinite duration then
    throw (.invalidParameters (.duration (Scalar.text duration)))
  let s ← e.build net dt
  match s.run (Scalar.nearestNat (duration / dt)) with
  | (.error e, _) => throw e
  | (.ok (), s) => return s.recording

end SignalGraph
