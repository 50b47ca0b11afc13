import SignalGraph.Realize
import SignalGraph.Run.Capture

namespace SignalGraph.Run

variable {α : Type} [Scalar α]

/-- A fresh network with the nodes of an array realized on it and their probes. -/
def prepare (g : Graph α) (defaults : Defaults α) (f : Fold) :
    Except RunError (Capture × Network α) := do
  let (handles, r) := (Realize.makeFold Target.network g defaults f).run
    (.start (Network.empty (some "run")))
  let handles ← handles.mapError .realize
  let (capture, net) := (Capture.attach Target.network handles).run r.target
  return (← capture.mapError .network, net)

/-- A run on a given engine. -/
def runWith (e : Engine α) (g : Graph α) (defaults : Defaults α) (f : Fold) (o : RunOptions α) :
    Except RunError (NDArray α) := do
  o.check
  let (capture, net) ← prepare g defaults f
  let recording ← (e.simulate net o.duration o.dt).mapError .network
  capture.extractDense recording o.timeAxis

/-- A run on the engine that the options name. -/
def run (g : Graph α) (defaults : Defaults α) (f : Fold) (o : RunOptions α) :
    Except RunError (NDArray α) :=
  runWith o.backend.engine g defaults f o

/-- A run of a single node: a row per step. -/
def runNode (g : Graph α) (defaults : Defaults α) (n : Node) (o : RunOptions α) :
    Except RunError (Matrix α) := do
  let values ← run g defaults (.single n) o
  match Matrix.ofNDArray? values with
  | some m => return m
  | none => throw (.graph (.invalid (.storage .tooLong)))

end SignalGraph.Run
