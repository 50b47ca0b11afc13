import SignalGraph.Proofs.Simulation.Backends
import SignalGraph.Proofs.Simulation.Feedback
import SignalGraph.Proofs.Simulation.Safety

namespace SignalGraph

variable {α : Type} [Scalar α]

omit [Scalar α] in
/-- Parts that put out what they make of their own value. -/
def Part.hasState : Part α → Bool
  | .feedback .. | .filter .. => true
  | _ => false

theorem Part.output_stateless {kernel : Kernel α} {t : α} {place size : Nat} {own own' : List α}
    {read : Nat → List α} {p : Part α} (h : p.hasState = false) :
    p.output kernel t place size own read = p.output kernel t place size own' read := by
  cases p with
  | feedback | filter => cases h
  | _ => rfl

namespace Circuit

/-- A value of a filter moved on by one step. -/
def smoothed (decay : α) (old new : List α) : List α :=
  List.zipWith (fun x y => x * decay + y * (Scalar.one - decay)) old new

omit [Scalar α] in
/-- Values of a circuit that agree on what is done and on all states. -/
structure Tied (c : Circuit α) (done : Set Nat) (v v' : Values α) : Prop where
  size : v.size = c.parts.size
  size' : v'.size = c.parts.size
  done : ∀ i ∈ done, v.of i = v'.of i
  state : ∀ i p, c.parts[i]? = some p → p.hasState = true → v.of i = v'.of i

variable {c : Circuit α} {done : Set Nat} {v v' : Values α} {kernel : Kernel α} {t : α}

omit [Scalar α] in
theorem Tied.states (h : c.Tied done v v') : c.Tied ∅ v v' :=
  { h with done := fun _ hi => absurd hi (Set.notMem_empty _) }

theorem Tied.evaluate (h : c.Tied done v v') {i : Nat}
    (hin : ∀ p, c.parts[i]? = some p → ∀ j ∈ p.stepInputs, j ∈ done) :
    c.evaluate kernel t v i = c.evaluate kernel t v' i := by
  cases hp : c.parts[i]? with
  | none => simp only [Circuit.evaluate, hp]
  | some p =>
    rw [evaluate_eq_output c hp, evaluate_eq_output c hp,
      Part.output_congr fun j hj => h.done j (hin p hp j hj)]
    cases hs : p.hasState with
    | true => rw [h.state i p hp hs]
    | false => exact Part.output_stateless hs

end Circuit

namespace Simulator

variable {c : Circuit α} {kernel : Kernel α} {t : α}

variable (kernel t) in
/-- Sweeps from values with the same states end alike. -/
theorem sweep_tied {schedule : List (List Nat)} {done : Set Nat} {v v' : Values α}
    (hf : c.Follows done schedule) (h : c.Tied done v v') :
    (∃ e w w', sweep c kernel t schedule v = (.error e, w) ∧
      sweep c kernel t schedule v' = (.error e, w') ∧ c.Tied ∅ w w') ∨
    ∃ w, sweep c kernel t schedule v = (.ok (), w) ∧ sweep c kernel t schedule v' = (.ok (), w) := by
  induction schedule generalizing done v v' with
  | nil =>
    have hv : v = v' := Values.ext (h.size.trans h.size'.symm) fun i hi =>
      h.done i (hf i (h.size ▸ hi))
    exact .inr ⟨v, rfl, hv ▸ rfl⟩
  | cons batch rest ih =>
    obtain ⟨⟨hn, hb⟩, hf⟩ := hf
    have heval : ∀ i ∈ batch, c.evaluate kernel t v i = c.evaluate kernel t v' i :=
      fun i hi => h.evaluate (hb i hi).2.2
    rw [sweep, sweep, ← mapM_congr_mem heval]
    cases ho : batch.mapM (c.evaluate kernel t v) with
    | error e => exact .inl ⟨e, v, v', rfl, rfl, h.states⟩
    | ok outputs =>
      have hr := mapM_eq_ok.1 ho
      have hbatch : ∀ i ∈ batch, Values.of (write v (batch.zip outputs)) i =
          Values.of (write v' (batch.zip outputs)) i := by
        intro i hi
        have hw := write_of_mem v hr hn (fun b hb' => h.size ▸ (hb b hb').1) hi
        have hw' := write_of_mem v' hr hn (fun b hb' => h.size' ▸ (hb b hb').1) hi
        exact Except.ok.inj (hw.symm.trans hw')
      have hother : ∀ i, v.of i = v'.of i → Values.of (write v (batch.zip outputs)) i =
          Values.of (write v' (batch.zip outputs)) i := by
        intro i hi
        by_cases hm : i ∈ batch
        · exact hbatch i hm
        · rw [write_of_not_mem v hm, write_of_not_mem v' hm, hi]
      refine ih hf ⟨?_, ?_, fun i hi => ?_, fun i p hp hs => hother i (h.state i p hp hs)⟩
      · rw [write_size, h.size]
      · rw [write_size, h.size']
      · exact hi.elim (fun hd => hother i (h.done i hd)) (hbatch i)

/-- A sweep that fails was good up to a batch in which a part failed. -/
theorem sweep_error {schedule : List (List Nat)} {values values' : Values α} {e : NetworkError}
    (hs : sweep c kernel t schedule values = (.error e, values')) :
    ∃ before batch after, schedule = before ++ batch :: after ∧
      sweep c kernel t before values = (.ok (), values') ∧
      batch.mapM (c.evaluate kernel t values') = .error e := by
  induction schedule generalizing values with
  | nil => cases hs
  | cons batch rest ih =>
    rw [sweep] at hs
    split at hs
    · rename_i ho
      cases hs
      exact ⟨[], batch, rest, rfl, rfl, ho⟩
    · rename_i outputs ho
      obtain ⟨before, batch', after, rfl, hbefore, herror⟩ := ih hs
      refine ⟨batch :: before, batch', after, rfl, ?_, herror⟩
      rw [sweep, ho]
      exact hbefore

/-- Simulators of one circuit that recorded the same and have the same states. -/
structure Matches (s s' : Simulator α) : Prop extends s.Agrees s' where
  schedule : s.schedule = s'.schedule
  tied : s.circuit.Tied ∅ s.values s'.values

namespace Matches

variable {s s' : Simulator α}

theorem step (h : s.Matches s') (hs : s.Ready) :
    s.step.1 = s'.step.1 ∧ s.step.2.Matches s'.step.2 := by
  rw [step_eq, step_eq, ← h.circuit, ← h.kernel, ← h.schedule, ← h.nextTime]
  rcases sweep_tied s.kernel s.nextTime hs.follows h.tied with
    ⟨e, w, w', hw, hw', htied⟩ | ⟨w, hw, hw'⟩
  · rw [hw, hw']
    exact ⟨rfl, ⟨rfl, rfl, h.recorder, h.steps⟩, rfl, htied⟩
  · rw [hw, hw']
    have hnext := h.toAgrees.next w
    have hsize : (s.next w).values.size = s.circuit.parts.size := by
      have hswept := sweep_size s.circuit s.kernel s.nextTime s.schedule s.values
      rw [hw] at hswept
      exact (s.circuit.advanceAll_size w).trans (hswept.trans hs.size)
    refine ⟨rfl, hnext.toAgrees, h.schedule, hsize, hnext.values ▸ hsize, fun i _ => ?_,
      fun i _ _ _ => ?_⟩
    · rw [hnext.values]
    · rw [hnext.values]

theorem run (h : s.Matches s') (hs : s.Ready) (n : Nat) :
    (s.run n).1 = (s'.run n).1 ∧ (s.run n).2.Matches (s'.run n).2 := by
  induction n generalizing s s' with
  | zero => exact ⟨rfl, h⟩
  | succ n ih =>
    obtain ⟨hanswer, hstep⟩ := h.step hs
    have hready := step_ready hs
    rw [Simulator.run, Simulator.run]
    generalize s.step = r at hanswer hstep hready
    generalize s'.step = r' at hanswer hstep
    obtain ⟨answer, u⟩ := r
    obtain ⟨answer', u'⟩ := r'
    cases hanswer
    cases answer with
    | ok => exact ih hstep hready
    | error e => exact ⟨rfl, hstep⟩

theorem time (h : s.Matches s') : s.time = s'.time := by
  rw [Simulator.time, Simulator.time, h.steps, h.circuit]

end Matches

theorem run_ready {s : Simulator α} (hs : s.Ready) (n : Nat) : (s.run n).2.Ready := by
  induction n generalizing s with
  | zero => exact hs
  | succ n ih =>
    have hready := step_ready hs
    rw [run]
    split
    · rename_i u hu
      rw [hu] at hready
      exact ih hready
    · rename_i e u hu
      rw [hu] at hready
      exact hready

/-- The answer to a command, and the simulator behind it. -/
def Command.answer (s : Simulator α) : Command → Except NetworkError Unit × Simulator α
  | step => s.step
  | run n => s.run n

/-- What can be seen of a simulator under commands: the answer to each of them, with the time and the
recording after it. -/
def observe (s : Simulator α) : List Command → List (Except NetworkError Unit × α × Recording α)
  | [] => []
  | c :: commands =>
    ((c.answer s).1, (c.answer s).2.time, (c.answer s).2.recording) :: (c.answer s).2.observe commands

theorem Matches.observe {s s' : Simulator α} (h : s.Matches s') (hs : s.Ready)
    (commands : List Command) : s.observe commands = s'.observe commands := by
  induction commands generalizing s s' with
  | nil => rfl
  | cons c commands ih =>
    have hanswer : (c.answer s).1 = (c.answer s').1 ∧ (c.answer s).2.Matches (c.answer s').2 ∧
        (c.answer s).2.Ready := by
      cases c with
      | step => exact ⟨(h.step hs).1, (h.step hs).2, step_ready hs⟩
      | run n => exact ⟨(h.run hs n).1, (h.run hs n).2, run_ready hs n⟩
    obtain ⟨ha, hm, hr⟩ := hanswer
    rw [Simulator.observe, Simulator.observe, ha, hm.time, hm.recording, ih hm hr]

/-- What a stretch of a sweep has done to states: filters on it have moved on by a step, other filters
and all feedback objects are as they were. -/
structure Smoothed (net : Network α) (dt : α) (places : List Nat) (old new : Values α) : Prop where
  reached : ∀ (i n : Nat) (input : Handle) (tau : α),
    net.objects[i]? = some ⟨.filter input tau, n⟩ → i ∈ places →
      new.of i = Circuit.smoothed (Circuit.decay dt tau) (old.of i) (new.of input.id)
  left : ∀ (i n : Nat) (input : Handle) (tau : α),
    net.objects[i]? = some ⟨.filter input tau, n⟩ → i ∉ places → new.of i = old.of i
  feedback : ∀ (i n : Nat) (input : Handle) (f : Option Handle),
    net.objects[i]? = some ⟨.feedback input f, n⟩ → new.of i = old.of i

theorem sweep_smoothed {net : Network α} {dt : α} {stretch rest : List (List Nat)}
    {values new : Values α} (hm : c.Made net dt) (hf : c.Follows ∅ (stretch ++ rest))
    (hv : values.size = c.parts.size)
    (hs : sweep c kernel t stretch values = (.ok (), new)) :
    Smoothed net dt stretch.flatten values new := by
  obtain ⟨-, hother, hout⟩ := sweep_stretch hf hv hs
  refine ⟨fun i n input tau ho hi => ?_, fun i _ _ _ _ hi => hother i hi, fun i n input f ho => ?_⟩
  · obtain ⟨p, hp, hpart⟩ := hm.part i _ ho
    cases hpart
    exact (Except.ok.inj (hout i _ hi hp)).symm
  · by_cases hi : i ∈ stretch.flatten
    · exact (Except.ok.inj (hout i _ hi (hm.feedback ho))).symm
    · exact hother i hi

/-- States that a failed step has left as they were leave no trace of it. -/
theorem Matches.of_error {net : Network α} {dt : α} {s s' : Simulator α} {e : NetworkError}
    (h : s.Simulates net dt) (hstep : s.step = (.error e, s'))
    (hfilters : ∀ (i n : Nat) (input : Handle) (tau : α),
      net.objects[i]? = some ⟨.filter input tau, n⟩ → s'.values.of i = s.values.of i)
    (hfeedbacks : ∀ (i n : Nat) (input : Handle) (f : Option Handle),
      net.objects[i]? = some ⟨.feedback input f, n⟩ → s'.values.of i = s.values.of i) :
    s'.Matches s := by
  have h' := h.step
  rw [hstep] at h'
  have hs' := step_error hstep
  have hcircuit : s'.circuit = s.circuit := by rw [hs']
  refine ⟨⟨hcircuit, by rw [hs'], by rw [hs'], by rw [hs']⟩, by rw [hs'], h'.ready.size,
    hcircuit ▸ h.ready.size, fun i hi => absurd hi (Set.notMem_empty i), fun i p hp hstate => ?_⟩
  obtain ⟨⟨o, n⟩, ho, hpart⟩ := h'.made.record hp
  cases o with
  | filter input tau => exact hfilters i n input tau ho
  | feedback input f => exact hfeedbacks i n input f ho
  | nonlinear input function params =>
    simp only [Circuit.part, Except.map] at hpart
    split at hpart
    · cases hpart
      cases hstate
    · split at hpart <;> cases hpart
      cases hstate
  | _ =>
    cases hpart
    cases hstate

end Simulator

open Simulator in
/-- A step of a simulator of a network that calls lead to, after any commands, failed ones among
them. A step that succeeds is recorded and moves each filter on once. One that fails leaves time and
recording as they are; the filters in the batches before the one that failed have moved on all the
same, with all other states as before. Where no filter has changed its value by that, all that can be
seen under commands from then on is as if the step had not been made. -/
theorem failed_step {net : Network α} (hr : net.Reachable) {b : Backend} {dt : α}
    {s₀ : Simulator α} (hb : b.engine.build net dt = .ok s₀) (commands : List Command) :
    let s := s₀.after commands
    (∀ s', s.step = (.ok (), s') → s'.steps = s.steps + 1 ∧ s'.recorder.times.size = s.recorder.times.size + 1 ∧
      ∃ v : Values α, sweep s.circuit s.kernel s.nextTime s.schedule s.values = (.ok (), v) ∧
        ∀ (i n : Nat) (input : Handle) (tau : α), net.objects[i]? = some ⟨.filter input tau, n⟩ →
          s'.values.of i =
            Circuit.smoothed (Circuit.decay dt tau) (s.values.of i) (v.of input.id)) ∧
    ∀ e s', s.step = (.error e, s') →
      s'.time = s.time ∧ s'.recording = s.recording ∧
      (∃ before batch after, s.schedule = before ++ batch :: after ∧
        batch.mapM (s.circuit.evaluate s.kernel s.nextTime s'.values) = .error e ∧
        Smoothed net dt before.flatten s.values s'.values) ∧
      ((∀ (i n : Nat) (input : Handle) (tau : α), net.objects[i]? = some ⟨.filter input tau, n⟩ →
          s'.values.of i = s.values.of i) →
        ∀ later : List Command, s'.observe later = s.observe later) := by
  intro s
  have hs := (Backend.simulates hb hr.wellFormed).reaches (after_reaches .start commands)
  change s.Simulates net dt at hs
  refine ⟨fun s' hstep => ?_, fun e s' hstep => ?_⟩
  · obtain ⟨v, -, -, hsweep, rfl⟩ := hs.settled hstep
    refine ⟨rfl, Array.size_push _, v, hsweep, fun i n input tau ho => ?_⟩
    have hf : s.circuit.Follows ∅ (s.schedule ++ []) :=
      (List.append_nil s.schedule).symm ▸ hs.ready.follows
    obtain ⟨p, hp, hpart⟩ := hs.made.part i _ ho
    cases hpart
    have hcovers := hs.ready.follows.covers (Array.getElem?_eq_some_iff.1 hp).1
      (Set.notMem_empty i)
    have hkept := s.circuit.advanceAll_other v (i := i) fun a g hfb => by
      rw [hp] at hfb
      cases hfb
    exact hkept.trans ((sweep_smoothed hs.made hf hs.ready.size hsweep).reached i n input tau ho
      hcovers)
  · have hs' := step_error hstep
    have hsweep : sweep s.circuit s.kernel s.nextTime s.schedule s.values = (.error e, s'.values) := by
      rw [step_eq] at hstep
      split at hstep
      · rename_i hv
        cases hstep
        exact hv
      · cases hstep
    obtain ⟨before, batch, after, hschedule, hbefore, hbatch⟩ := sweep_error hsweep
    have hsmoothed := sweep_smoothed hs.made (hschedule ▸ hs.ready.follows) hs.ready.size hbefore
    refine ⟨?_, ?_, ⟨before, batch, after, hschedule, hbatch, hsmoothed⟩, fun hfilters later => ?_⟩
    · rw [hs']
      rfl
    · rw [hs']
      rfl
    · have hmatches := Matches.of_error hs hstep hfilters hsmoothed.feedback
      have hready := step_ready hs.ready
      rw [hstep] at hready
      exact hmatches.observe hready later

/-- A function of a falling ramp that fails below minus one, and a filter of it. -/
def failingFunction : Network ℚ :=
  ⟨none, #[⟨.source (.constant [-1]), 1⟩, ⟨.feedback ⟨0, 1⟩ none, 1⟩,
    ⟨.nonlinear ⟨1, 1⟩ (fun xs => xs.filter (-1 ≤ ·)) .standard, 1⟩, ⟨.filter ⟨2, 1⟩ 2, 1⟩],
    #[⟨3, 1⟩]⟩

theorem failingFunction_reachable : failingFunction.Reachable := by
  have h₁ := Network.Reachable.create (r := .source (.constant [(-1 : ℚ)])) (.empty none) rfl
  have h₂ := h₁.create (r := .feedback ⟨0, 1⟩) rfl
  have h₃ := h₂.create (r := .nonlinear ⟨1, 1⟩ (fun xs => xs.filter (-1 ≤ ·)) 1 .standard) rfl
  have h₄ := h₃.create (r := .filter ⟨2, 1⟩ (2 : ℚ)) rfl
  exact h₄.probe (h := ⟨3, 1⟩) rfl

/-- It ready for stepping. -/
def failingFunctionStart : Simulator ℚ :=
  Backend.batched.simulator
    ⟨1, #[.source (.constant [-1]), .feedback 0 none,
      .direct 1 (fun xs => xs.filter (-1 ≤ ·)) 1, .filter 2 (Circuit.decay 1 2)],
      failingFunction.objects.map (·.size), [3]⟩

open Simulator in
/-- The third step fails before it comes to the filter. -/
theorem failingFunction_step :
    let s := failingFunctionStart.after [.run 2]
    failingFunction.Reachable ∧
      Backend.batched.engine.build failingFunction 1 = .ok failingFunctionStart ∧
      s.step = (.error (.invalidOutput 2 1 0), s.step.2) ∧
      s.step.2.time = s.time ∧ ∀ later : List Command, s.step.2.observe later = s.observe later := by
  intro s
  have hr := failingFunction_reachable
  have hb : Backend.batched.engine.build failingFunction 1 = .ok failingFunctionStart := rfl
  have hstep : s.step = (.error (.invalidOutput 2 1 0), s.step.2) :=
    Prod.ext (by decide +kernel) rfl
  obtain ⟨htime, -, -, hlater⟩ := (failed_step hr hb [.run 2]).2 _ _ hstep
  refine ⟨hr, hb, hstep, htime, hlater fun i n input tau ho => ?_⟩
  match i, ho with
  | 3, _ => decide +kernel

/-- A filter of a source, and a function of it that fails above minus six tenths. -/
def gatedFilter : Network ℚ :=
  ⟨none, #[⟨.source (.constant [-1]), 1⟩, ⟨.filter ⟨0, 1⟩ 2, 1⟩,
    ⟨.nonlinear ⟨1, 1⟩ (fun xs => xs.filter (· ≤ -6 / 10)) .standard, 1⟩], #[⟨1, 1⟩]⟩

theorem gatedFilter_reachable : gatedFilter.Reachable := by
  have h₁ := Network.Reachable.create (r := .source (.constant [(-1 : ℚ)])) (.empty none) rfl
  have h₂ := h₁.create (r := .filter ⟨0, 1⟩ (2 : ℚ)) rfl
  have h₃ := h₂.create (r := .nonlinear ⟨1, 1⟩ (fun xs => xs.filter (· ≤ -6 / 10)) 1 .standard) rfl
  exact h₃.probe (h := ⟨1, 1⟩) rfl

open Simulator in
/-- The first step fails behind the filter. Made once more, it succeeds, with the filter moved on
twice in the one step that is recorded. -/
theorem gatedFilter_retried :
    gatedFilter.Reachable ∧ ∃ s₀ s' : Simulator ℚ,
      Backend.cpu.engine.build gatedFilter 1 = .ok s₀ ∧ s₀.step.2 = s' ∧
        (s₀.observe [.step]).map (·.1) = [.error (.invalidOutput 2 1 0)] ∧
        (s'.observe [.step]).map (·.1) = [.ok ()] ∧ s'.time = s₀.time ∧
        Circuit.smoothed (Circuit.decay 1 2) [0] [-1] = [(-1 / 2 : ℚ)] ∧
        s'.step.2.recorder.samples = [#[-3 / 4]] := by
  refine ⟨gatedFilter_reachable, _, _, rfl, rfl, ?_, ?_, ?_, ?_, ?_⟩ <;> decide +kernel

end SignalGraph
