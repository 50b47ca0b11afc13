import SignalGraph.Proofs.Arithmetic.Kernels
import SignalGraph.Proofs.Arithmetic.Rational
import SignalGraph.Proofs.Simulation.Stepping

namespace SignalGraph

variable {α : Type} [Scalar α]

namespace Simulator

/-- Simulators of one circuit that recorded the same. -/
structure Agrees (s s' : Simulator α) : Prop where
  circuit : s.circuit = s'.circuit
  kernel : s.kernel = s'.kernel
  recorder : s.recorder = s'.recorder
  steps : s.steps = s'.steps

/-- Simulators that hold the same values besides. -/
structure InStep (s s' : Simulator α) : Prop extends s.Agrees s' where
  values : s.values = s'.values

omit [Scalar α] in
theorem Agrees.symm {s s' : Simulator α} (h : s.Agrees s') : s'.Agrees s :=
  ⟨h.circuit.symm, h.kernel.symm, h.recorder.symm, h.steps.symm⟩

omit [Scalar α] in
theorem InStep.symm {s s' : Simulator α} (h : s.InStep s') : s'.InStep s :=
  ⟨h.toAgrees.symm, h.values.symm⟩

theorem Agrees.nextTime {s s' : Simulator α} (h : s.Agrees s') : s.nextTime = s'.nextTime := by
  rw [Simulator.nextTime, Simulator.nextTime, h.steps, h.circuit]

theorem Agrees.recording {s s' : Simulator α} (h : s.Agrees s') : s.recording = s'.recording :=
  congrArg Recorder.data h.recorder

theorem Agrees.next {s s' : Simulator α} (h : s.Agrees s') (v : Values α) :
    (s.next v).InStep (s'.next v) where
  circuit := h.circuit
  kernel := h.kernel
  recorder := by rw [Simulator.next, Simulator.next, h.recorder, h.nextTime]
  steps := congrArg (· + 1) h.steps
  values := by rw [Simulator.next, Simulator.next, h.circuit]

/-- Outcomes of both simulators that are alike. -/
inductive Alike : Except NetworkError Unit × Simulator α → Except NetworkError Unit × Simulator α →
    Prop
  | ok {s s' : Simulator α} : s.InStep s' → Alike (.ok (), s) (.ok (), s')
  | error {s s' : Simulator α} {e e' : NetworkError} :
    s.Agrees s' → Alike (.error e, s) (.error e', s')

/-- What one of them can settle on, the other can. -/
theorem InStep.step_ok {s s' u : Simulator α} (h : s.InStep s') (hs : s.Ready) (hs' : s'.Ready)
    (hu : s.step = (.ok (), u)) : ∃ u', s'.step = (.ok (), u') ∧ u.InStep u' := by
  obtain ⟨v, hv, rfl⟩ := (step_eq_ok_iff hs).1 hu
  refine ⟨s'.next v, (step_eq_ok_iff hs').2 ⟨v, ?_, rfl⟩, h.next v⟩
  rwa [h.circuit, h.kernel, h.values, h.nextTime] at hv

theorem InStep.step {s s' : Simulator α} (h : s.InStep s') (hs : s.Ready) (hs' : s'.Ready) :
    Alike s.step s'.step := by
  rcases hu : s.step with ⟨_ | _, u⟩
  · rcases hu' : s'.step with ⟨_ | _, u'⟩
    · rw [step_error hu, step_error hu']
      exact .error ⟨h.circuit, h.kernel, h.recorder, h.steps⟩
    · obtain ⟨w, hw, -⟩ := h.symm.step_ok hs' hs hu'
      cases hu.symm.trans hw
  · obtain ⟨u', hu', hin⟩ := h.step_ok hs hs' hu
    rw [hu']
    exact .ok hin

theorem InStep.run {s s' : Simulator α} (h : s.InStep s') (hs : s.Ready) (hs' : s'.Ready) (n : Nat) :
    Alike (s.run n) (s'.run n) := by
  induction n generalizing s s' with
  | zero => exact .ok h
  | succ n ih =>
    have hr := step_ready hs
    have hr' := step_ready hs'
    have hstep := h.step hs hs'
    rw [Simulator.run, Simulator.run]
    generalize s.step = r at hr hstep
    generalize s'.step = r' at hr' hstep
    cases hstep with
    | ok hin => exact ih hin hr hr'
    | error hag => exact .error hag

end Simulator

/-- The backends build a simulator of a network under the same conditions. With kernels that compute
the same, their runs of `n` steps both succeed or both fail in the same step, with the same time and
recording and, where they succeed, the same values. -/
theorem backends_agree {net : Network α} (hr : net.Reachable)
    (hk : (Kernel.sequential : Kernel α) = Kernel.blocked) (dt : α) (n : Nat) :
    match Backend.cpu.engine.build net dt, Backend.batched.engine.build net dt with
    | .ok s, .ok s' =>
      (s.run n).1.isOk = (s'.run n).1.isOk ∧ (s.run n).2.steps = (s'.run n).2.steps ∧
        (s.run n).2.time = (s'.run n).2.time ∧ (s.run n).2.recording = (s'.run n).2.recording ∧
        ((s.run n).1.isOk = true → (s.run n).2.values = (s'.run n).2.values)
    | .error e, .error e' => e = e'
    | _, _ => False := by
  rw [Backend.build_eq, Backend.build_eq]
  cases hc : Circuit.ofNetwork net dt with
  | error e => rfl
  | ok c =>
    have hm := Circuit.ofNetwork_eq_ok.1 hc
    have hw := hr.wellFormed
    have hstart : (Backend.cpu.simulator c).InStep (Backend.batched.simulator c) :=
      ⟨⟨rfl, hk, rfl, rfl⟩, rfl⟩
    have hrun :=
      hstart.run (Backend.cpu.simulator_ready hm hw) (Backend.batched.simulator_ready hm hw) n
    simp only [Functor.map, Except.map]
    generalize (Backend.cpu.simulator c).run n = r at hrun
    generalize (Backend.batched.simulator c).run n = r' at hrun
    cases hrun with
    | ok hin =>
      refine ⟨rfl, hin.steps, ?_, hin.recording, fun _ => hin.values⟩
      rw [Simulator.time, Simulator.time, hin.steps, hin.circuit]
    | error hag =>
      refine ⟨rfl, hag.steps, ?_, hag.recording, fun h => Bool.noConfusion h⟩
      rw [Simulator.time, Simulator.time, hag.steps, hag.circuit]

/-- A source, a feedback object that the filter of its own state closes, and a probe. -/
def filteredLoop : Network ℚ :=
  ⟨none, #[⟨.source (.constant [3]), 1⟩, ⟨.feedback ⟨0, 1⟩ (some ⟨2, 1⟩), 1⟩,
    ⟨.filter ⟨1, 1⟩ 2, 1⟩], #[⟨2, 1⟩]⟩

theorem filteredLoop_reachable : filteredLoop.Reachable := by
  have h₁ := Network.Reachable.create (r := .source (.constant [(3 : ℚ)])) (.empty none) rfl
  have h₂ := h₁.create (r := .feedback ⟨0, 1⟩) rfl
  have h₃ := h₂.create (r := .filter ⟨1, 1⟩ (2 : ℚ)) rfl
  have h₄ := h₃.connect (h := ⟨1, 1⟩) (f := ⟨2, 1⟩) rfl
  exact h₄.probe (h := ⟨2, 1⟩) rfl

theorem filteredLoop_backends_agree :
    filteredLoop.Reachable ∧ (Kernel.sequential : Kernel ℚ) = Kernel.blocked ∧
      match Backend.cpu.engine.build filteredLoop 1, Backend.batched.engine.build filteredLoop 1 with
      | .ok s, .ok s' =>
        (s.run 4).1.isOk = (s'.run 4).1.isOk ∧ (s.run 4).2.steps = (s'.run 4).2.steps ∧
          (s.run 4).2.time = (s'.run 4).2.time ∧ (s.run 4).2.recording = (s'.run 4).2.recording ∧
          ((s.run 4).1.isOk = true → (s.run 4).2.values = (s'.run 4).2.values)
      | .error e, .error e' => e = e'
      | _, _ => False :=
  ⟨filteredLoop_reachable, Kernel.sequential_eq_blocked,
    backends_agree filteredLoop_reachable Kernel.sequential_eq_blocked 1 4⟩

end SignalGraph
