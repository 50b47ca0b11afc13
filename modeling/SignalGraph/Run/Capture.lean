import SignalGraph.Network.Target
import SignalGraph.NDArray.Views
import SignalGraph.Run.Options

namespace SignalGraph

/-- A probe and the size of the object that it is on. -/
structure Tap where
  probe : Nat
  size : Nat
deriving Repr, DecidableEq, Inhabited

abbrev Capture := NDArray Tap

namespace Capture

variable {α σ : Type}

/-- A probe on each handle, in row-major order. -/
def attach (t : Target α σ) (handles : NDArray Handle) : Effect σ Capture :=
  handles.mapM fun h => return ⟨← t.probe h, h.size⟩

/-- The trace that a tap recorded. -/
def trace (r : Recording α) (tap : Tap) : Except RunError (Matrix α) := do
  match r.traces[tap.probe]? with
  | none => throw (.network (.simulationFailed (.noTrace tap.probe)))
  | some m =>
    if m.ncols ≠ tap.size then throw (.graph (.sizeMismatch "extract" tap.size m.ncols))
    return m

/-- A trace per handle, a row being a step. -/
def extract (c : Capture) (r : Recording α) : Except RunError (NDArray (Matrix α)) :=
  c.mapM (trace r)

/-- The axes of an array of traces, that of the steps before those of the handles. -/
def stepsFirst (rank : Nat) : List Nat := rank :: List.range rank ++ [rank + 1]

/-- All traces in one array, which they have to be of one size for. -/
def extractDense [Scalar α] (c : Capture) (r : Recording α) (axis : TimeAxis) :
    Except RunError (NDArray α) := do
  let sizes := c.toList.map (·.size)
  let size := sizes.headD 0
  match sizes.find? (· ≠ size) with
  | some other => throw (.graph (.invalid (.traceSizes size other)))
  | none =>
    let traces ← c.toList.mapM (trace r)
    let values := traces.flatMap (·.data.toList)
    let trailing ←
      (NDArray.store (c.shape ++ [r.steps, size]) values).mapError fun e => .graph (.shape e)
    match axis with
    | .trailing => return trailing
    | .leading => (trailing.permute (stepsFirst c.rank)).mapError fun e => .graph (.shape e)

end Capture

end SignalGraph
