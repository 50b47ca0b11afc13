import SignalGraph.Proofs.Simulation.Compile
import SignalGraph.Proofs.Simulation.Levels
import SignalGraph.Simulation.Backend

namespace SignalGraph

variable {α : Type} [Scalar α]

theorem Circuit.advance_size (c : Circuit α) (values : Values α) (i : Nat) :
    (c.advance values i).size = values.size := by
  unfold advance
  split
  · exact Array.size_setIfInBounds
  · rfl

theorem Circuit.foldl_advance_size (c : Circuit α) (values : Values α) (is : List Nat) :
    (is.foldl c.advance values).size = values.size := by
  induction is generalizing values with
  | nil => rfl
  | cons i is ih => rw [List.foldl_cons, ih, c.advance_size]

theorem Circuit.advanceAll_size (c : Circuit α) (values : Values α) :
    (c.advanceAll values).size = values.size :=
  c.foldl_advance_size values _

namespace Simulator

/-- The time that the next step is made at. -/
def nextTime (s : Simulator α) : α := Scalar.ofNat (s.steps + 1) * s.circuit.dt

/-- The simulator after a step that settled these values. -/
def next (s : Simulator α) (settled : Values α) : Simulator α :=
  { s with
    values := s.circuit.advanceAll settled
    recorder := s.recorder.record s.nextTime settled
    steps := s.steps + 1 }

/-- A simulator with a schedule for its circuit and a value for each part. -/
structure Ready (s : Simulator α) : Prop where
  follows : s.circuit.Follows ∅ s.schedule
  size : s.values.size = s.circuit.parts.size

theorem step_eq (s : Simulator α) :
    s.step =
      match sweep s.circuit s.kernel s.nextTime s.schedule s.values with
      | (.error e, values) => (.error e, { s with values })
      | (.ok (), values) => (.ok (), s.next values) :=
  rfl

theorem step_eq_ok_iff {s s' : Simulator α} (h : s.Ready) :
    s.step = (.ok (), s') ↔
      ∃ v, s.circuit.Settles s.kernel s.nextTime s.values v ∧ s' = s.next v := by
  constructor
  · intro hs
    rw [step_eq] at hs
    split at hs
    · cases hs
    · rename_i v hv
      cases hs
      exact ⟨v, (sweep_eq_ok_iff h.follows h.size).1 hv, rfl⟩
  · rintro ⟨v, hv, rfl⟩
    have hs := (sweep_eq_ok_iff h.follows h.size).2 hv
    rw [step_eq, hs]

theorem step_error {s s' : Simulator α} {e : NetworkError} (hs : s.step = (.error e, s')) :
    s' = { s with values := s'.values } := by
  rw [step_eq] at hs
  split at hs
  · cases hs
    rfl
  · cases hs

theorem sweep_size (c : Circuit α) (kernel : Kernel α) (t : α) (schedule : List (List Nat))
    (values : Values α) : (sweep c kernel t schedule values).2.size = values.size := by
  induction schedule generalizing values with
  | nil => rfl
  | cons batch rest ih =>
    rw [sweep]
    split
    · rfl
    · rw [ih, write_size]

theorem step_ready {s : Simulator α} (h : s.Ready) : s.step.2.Ready := by
  have hsize := sweep_size s.circuit s.kernel s.nextTime s.schedule s.values
  rw [step_eq]
  split
  · rename_i e values hv
    rw [hv] at hsize
    exact ⟨h.follows, hsize.trans h.size⟩
  · rename_i values hv
    rw [hv] at hsize
    exact ⟨h.follows, (s.circuit.advanceAll_size values).trans (hsize.trans h.size)⟩

theorem step_circuit (s : Simulator α) : s.step.2.circuit = s.circuit := by
  rw [step_eq]
  split <;> rfl

theorem step_kernel (s : Simulator α) : s.step.2.kernel = s.kernel := by
  rw [step_eq]
  split <;> rfl

theorem step_probes (s : Simulator α) : s.step.2.recorder.probes = s.recorder.probes := by
  rw [step_eq]
  split <;> rfl

/-- Simulators that steps lead to, failing ones included. -/
inductive Reaches (s : Simulator α) : Simulator α → Prop
  | start : s.Reaches s
  | step {s' : Simulator α} : s.Reaches s' → s.Reaches s'.step.2

theorem run_reaches {s s' : Simulator α} (h : s.Reaches s') (n : Nat) :
    s.Reaches (s'.run n).2 := by
  induction n generalizing s' with
  | zero => exact h
  | succ n ih =>
    have hstep := h.step
    rw [run]
    split
    · rename_i u hu
      rw [hu] at hstep
      exact ih hstep
    · rename_i e u hu
      rw [hu] at hstep
      exact hstep

theorem step_steps {s s' : Simulator α} (h : s.step = (.ok (), s')) : s'.steps = s.steps + 1 := by
  rw [step_eq] at h
  split at h
  · cases h
  · cases h
    rfl

/-- A run that succeeds makes all its steps. -/
theorem run_steps {s s' : Simulator α} {n : Nat} (h : s.run n = (.ok (), s')) :
    s'.steps = s.steps + n := by
  induction n generalizing s with
  | zero =>
    cases h
    rfl
  | succ n ih =>
    rw [run] at h
    split at h
    · rename_i u hu
      rw [ih h, step_steps hu, Nat.add_assoc, Nat.add_comm 1]
    · cases h

/-- The probes are recorded that were at the start. -/
theorem Reaches.probes {s s' : Simulator α} (h : s.Reaches s')
    (hs : s.recorder.probes = s.circuit.probes) : s'.recorder.probes = s'.circuit.probes := by
  induction h with
  | start => exact hs
  | step _ ih => rw [step_probes, ih, step_circuit]

end Simulator

/-- The kernel and the schedule that a backend runs a circuit with. -/
def Backend.simulator (b : Backend) (c : Circuit α) : Simulator α :=
  match b with
  | .cpu => .start c .sequential c.oneByOne
  | .batched => .start c .blocked c.levels

theorem Backend.build_eq (b : Backend) (net : Network α) (dt : α) :
    b.engine.build net dt = b.simulator <$> Circuit.ofNetwork net dt := by
  cases b <;> simp [engine] <;> rfl

theorem Backend.build_eq_ok {b : Backend} {net : Network α} {dt : α} {s : Simulator α} :
    b.engine.build net dt = .ok s ↔ ∃ c : Circuit α, c.Made net dt ∧ b.simulator c = s := by
  simp only [build_eq, map_eq_ok, Circuit.ofNetwork_eq_ok]

theorem Backend.simulator_circuit (b : Backend) (c : Circuit α) : (b.simulator c).circuit = c := by
  cases b <;> rfl

theorem Backend.simulator_values (b : Backend) (c : Circuit α) :
    (b.simulator c).values = c.initial := by
  cases b <;> rfl

theorem Backend.simulator_probes (b : Backend) (c : Circuit α) :
    (b.simulator c).recorder.probes = (b.simulator c).circuit.probes := by
  cases b <;> rfl

theorem Backend.simulator_ready {net : Network α} {dt : α} {c : Circuit α} (b : Backend)
    (hm : c.Made net dt) (hw : net.WellFormed) : (b.simulator c).Ready := by
  have hf := hm.forward hw
  cases b with
  | cpu => exact ⟨Circuit.follows_oneByOne hf, hm.initial_size⟩
  | batched => exact ⟨Circuit.follows_levels hf, hm.initial_size⟩

end SignalGraph
