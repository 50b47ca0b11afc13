import SignalGraph.Simulation.Schedule

namespace SignalGraph

/-- What a simulation recorded: a matrix per probe, with a row per step. -/
structure Recording (α : Type) where
  dt : α
  times : List α
  traces : List (Matrix α)

def Recording.steps {α : Type} (r : Recording α) : Nat := r.times.length

/-- The times of the steps and, for each probe, the numbers of all steps one behind the other. -/
structure Recorder (α : Type) where
  dt : α
  times : Array α
  probes : List Nat
  sizes : List Nat
  samples : List (Array α)

namespace Recorder

variable {α : Type}

/-- A recorder of the probes of a circuit that has recorded nothing. -/
def ofCircuit (c : Circuit α) : Recorder α :=
  ⟨c.dt, #[], c.probes, c.probes.map (c.sizes.getD · 0), c.probes.map fun _ => #[]⟩

def record (r : Recorder α) (t : α) (values : Values α) : Recorder α :=
  { r with
    times := r.times.push t
    samples := List.zipWith (fun xs probe => xs ++ values.of probe) r.samples r.probes }

/-- The numbers of each probe with a row for each step. -/
def data [Inhabited α] (r : Recorder α) : Recording α where
  dt := r.dt
  times := r.times.toList
  traces := List.zipWith (fun xs size => .ofFn r.times.size size fun i j =>
    xs.getD (i * size + j) default) r.samples r.sizes

end Recorder

structure Simulator (α : Type) where
  circuit : Circuit α
  kernel : Kernel α
  schedule : List (List Nat)
  values : Values α
  recorder : Recorder α
  steps : Nat

namespace Simulator

variable {α : Type} [Scalar α]

def start (c : Circuit α) (kernel : Kernel α) (schedule : List (List Nat)) : Simulator α :=
  ⟨c, kernel, schedule, c.initial, .ofCircuit c, 0⟩

/-- The time after the steps made. -/
def time (s : Simulator α) : α := Scalar.ofNat s.steps * s.circuit.dt

/-- The values with those of a batch replaced. -/
def write (values : Values α) : List (Nat × List α) → Values α
  | [] => values
  | (i, x) :: rest => write (values.setIfInBounds i x) rest

/-- Evaluates the batches of a schedule, up to the first failure. -/
def sweep (c : Circuit α) (kernel : Kernel α) (t : α) :
    List (List Nat) → Values α → Except NetworkError Unit × Values α
  | [], values => (.ok (), values)
  | batch :: rest, values =>
    match batch.mapM (c.evaluate kernel t values) with
    | .error e => (.error e, values)
    | .ok outputs => sweep c kernel t rest (write values (batch.zip outputs))

/-- A step that fails leaves what was evaluated before the failure. -/
def step (s : Simulator α) : Except NetworkError Unit × Simulator α :=
  let t := Scalar.ofNat (s.steps + 1) * s.circuit.dt
  match sweep s.circuit s.kernel t s.schedule s.values with
  | (.error e, values) => (.error e, { s with values })
  | (.ok (), values) =>
    (.ok (), { s with
      values := s.circuit.advanceAll values
      recorder := s.recorder.record t values
      steps := s.steps + 1 })

/-- Steps up to a number of them or to the first failure. -/
def run : Nat → Simulator α → Except NetworkError Unit × Simulator α
  | 0, s => (.ok (), s)
  | n + 1, s =>
    match s.step with
    | (.ok (), s) => run n s
    | (.error e, s) => (.error e, s)

/-- What has been recorded. -/
def recording (s : Simulator α) : Recording α := s.recorder.data

end Simulator

end SignalGraph
