import SignalGraph.Proofs.Arithmetic.Rational
import SignalGraph.Proofs.Arrays
import SignalGraph.Proofs.Simulation.Bounds
import SignalGraph.Proofs.Simulation.Records

namespace SignalGraph

variable {α : Type} [Scalar α]

omit [Scalar α] in
theorem Circuit.Follows.mem {c : Circuit α} {batch : List Nat} {rest : List (List Nat)}
    {pre : List (List Nat)} {done : Set Nat} (h : c.Follows done (pre ++ batch :: rest)) :
    ∀ i ∈ batch, i < c.parts.size := by
  induction pre generalizing done with
  | nil => exact fun i hi => (h.1.2 i hi).1
  | cons b pre ih => exact ih h.2

namespace Simulator

/-- What a simulator can be told to do. -/
inductive Command where
  | step
  | run (steps : Nat)

def Command.perform (s : Simulator α) : Command → Simulator α
  | step => s.step.2
  | run n => (s.run n).2

/-- The simulator after commands, whether they succeed or not. -/
def after (s : Simulator α) (commands : List Command) : Simulator α :=
  commands.foldl Command.perform s

theorem after_reaches {s s' : Simulator α} (h : s.Reaches s') (commands : List Command) :
    s.Reaches (s'.after commands) := by
  induction commands generalizing s' with
  | nil => exact h
  | cons c commands ih =>
    cases c with
    | step => exact ih h.step
    | run n => exact ih (run_reaches h n)

/-- The values that the step after `k` successful ones settled, on the way from one simulator to
another. -/
def Recorded (s s' : Simulator α) (k : Nat) (v : Values α) : Prop :=
  ∃ t t' : Simulator α, s.Reaches t ∧ t.steps = k ∧
    sweep t.circuit t.kernel t.nextTime t.schedule t.values = (.ok (), v) ∧
    t.step = (.ok (), t') ∧ t'.Reaches s'

/-- Whatever steps lead to, what is recorded was recorded by steps that succeeded. -/
theorem Reaches.records {b : Backend} {net : Network α} {dt : α} {s s' : Simulator α}
    (hb : b.engine.build net dt = .ok s) (hw : net.WellFormed) (h : s.Reaches s') :
    s'.Records (s.Recorded s') := by
  induction h with
  | start => exact .start hb
  | @step u h ih =>
    have hs := (Backend.simulates hb hw).reaches h
    have hold : u.Records (s.Recorded u.step.2) :=
      ih.imp fun k v ⟨t, t', ht, hk, hsweep, hstep, ht'⟩ => ⟨t, t', ht, hk, hsweep, hstep, ht'.step⟩
    rcases hstep : u.step with ⟨e | _, u'⟩
    · have hvalues := hold.withValues u'.values
      rw [← step_error hstep, hstep] at hvalues
      exact hvalues
    · rw [hstep] at hold
      obtain ⟨v, -, hv, hsweep, rfl⟩ := hs.settled hstep
      exact hold.next hv ⟨u, _, h, rfl, hsweep, hstep, .start⟩

end Simulator

open Simulator in
/-- A simulator of a network that calls lead to, after any commands, failed ones among them. Every
value has the size of its object. The parts of a batch find everything in range when they are
evaluated, the probes when a step is recorded and each feedback state when it is its turn to move
on. A probe holds as many numbers as steps were recorded times its size; they are the entries of its
trace, whose row `k` is the value that the probed object had in the step after `k` successful ones.
-/
theorem simulation_safe {net : Network α} (hr : net.Reachable) {b : Backend} {dt : α}
    {s₀ : Simulator α} (hb : b.engine.build net dt = .ok s₀) (commands : List Command) :
    let s := s₀.after commands
    (s.values.size = net.size ∧ ∀ (i : Nat) (r : ObjectRecord α), net.objects[i]? = some r →
      (s.values.of i).length = r.size) ∧
    (∀ (before after : List (List Nat)) (batch : List Nat) (v : Values α),
      s.schedule = before ++ batch :: after →
      sweep s.circuit s.kernel s.nextTime before s.values = (.ok (), v) →
      ∀ i ∈ batch, ∃ (r : ObjectRecord α) (p : Part α), net.objects[i]? = some r ∧
        s.circuit.parts[i]? = some p ∧ p.Within v i r.size) ∧
    (∀ v : Values α, sweep s.circuit s.kernel s.nextTime s.schedule s.values = (.ok (), v) →
      (∀ w ∈ net.probes, w.id < v.size ∧ (v.of w.id).length = w.size) ∧
      ∀ (i : Nat) (r : ObjectRecord α), net.objects[i]? = some r →
        ∃ p, s.circuit.parts[i]? = some p ∧
          p.MovesWithin ((List.range i).foldl s.circuit.advance v) i r.size) ∧
    ∀ (p : Nat) (w : Handle), net.probes[p]? = some w →
      ∃ (xs : Array α) (m : Matrix α), s.recorder.samples[p]? = some xs ∧
        xs.size = s.steps * w.size ∧ s.recording.traces[p]? = some m ∧ m.nrows = s.steps ∧
        m.ncols = w.size ∧
        (∀ k < s.steps, ∀ j < w.size, xs[k * w.size + j]? = some (m.entry k j)) ∧
        ∀ k < s.steps, ∃ v, s₀.Recorded s k v ∧ m.row k = v.of w.id := by
  intro s
  have hreach : s₀.Reaches s := after_reaches .start commands
  have hs := (Backend.simulates hb hr.wellFormed).reaches hreach
  have hm := hs.made
  have hw := hs.wellFormed
  have hsweep : ∀ (schedule : List (List Nat)) (v : Values α),
      sweep s.circuit s.kernel s.nextTime schedule s.values = (.ok (), v) → s.circuit.Sized v := by
    intro schedule v hv
    have h := hm.sweep_sized hw hs.rowwise (t := s.nextTime) schedule hs.sized
    rwa [hv] at h
  refine ⟨⟨hs.sized.size.trans hm.size, fun i r hi => ?_⟩, ?_, ?_, ?_⟩
  · obtain ⟨p, hp, -⟩ := hm.part i r hi
    rw [hs.sized.length i (Array.getElem?_eq_some_iff.1 hp).1, hm.sizes_getD hi]
  · intro before after batch v hschedule hv i hi
    have hlt := (hschedule ▸ hs.ready.follows).mem i hi
    have hlt' : i < net.objects.size := by rwa [hm.size] at hlt
    have hrec : net.objects[i]? = some net.objects[i] := Array.getElem?_eq_getElem hlt'
    obtain ⟨p, hp, hwithin⟩ := hm.within hw (hsweep before v hv) hrec
    exact ⟨_, p, hrec, hp, hwithin⟩
  · intro v hv
    have hsized := hsweep s.schedule v hv
    refine ⟨fun w hmem => hm.read_within hsized (hw.probes w hmem), fun i r hi => ?_⟩
    exact hm.movesWithin hw (hm.foldl_advance_sized hw hsized (List.range i)) hi
  · intro p w hp
    exact (hreach.records hb hr.wellFormed).trace hm (hw.probes w (Array.mem_of_getElem? hp)) hp

/-- A signal that fails from its third value on, a function of it and a feedback object that the
function drives. -/
def failingSource : Network ℚ :=
  ⟨none, #[⟨.source (.timed 1 fun t => if t < 3 then [t] else []), 1⟩,
    ⟨.nonlinear ⟨0, 1⟩ (fun xs => xs ++ xs) .standard, 2⟩, ⟨.feedback ⟨1, 2⟩ none, 2⟩,
    ⟨.slice ⟨2, 2⟩ [1], 1⟩], #[⟨1, 2⟩, ⟨3, 1⟩]⟩

theorem failingSource_reachable : failingSource.Reachable := by
  have h₁ := Network.Reachable.create
    (r := .source (.timed 1 fun t => if t < (3 : ℚ) then [t] else [])) (.empty none) rfl
  have h₂ := h₁.create (r := .nonlinear ⟨0, 1⟩ (fun xs => xs ++ xs) 2 .standard) rfl
  have h₃ := h₂.create (r := .feedback ⟨1, 2⟩) rfl
  have h₄ := h₃.create (r := .slice ⟨2, 2⟩ [1]) rfl
  have h₅ := h₄.probe (h := ⟨1, 2⟩) rfl
  exact h₅.probe (h := ⟨3, 1⟩) rfl

open Simulator in
theorem failingSource_safe :
    failingSource.Reachable ∧ ∃ s₀ : Simulator ℚ,
      Backend.batched.engine.build failingSource 1 = .ok s₀ ∧
        let s := s₀.after [.run 4, .step, .run 2]
        s.steps = 2 ∧ s.recorder.samples = [#[1, 1, 2, 2], #[0, 1]] ∧ (s.values.of 2).length = 2 ∧
          ∃ xs : Array ℚ, s.recorder.samples[1]? = some xs ∧ xs.size = s.steps * 1 := by
  have hbuild : Backend.batched.engine.build failingSource 1 = .ok _ := rfl
  refine ⟨failingSource_reachable, _, hbuild, ?_⟩
  intro s
  have hsafe := simulation_safe failingSource_reachable hbuild [.run 4, .step, .run 2]
  obtain ⟨xs, -, hxs, hsize, -⟩ := hsafe.2.2.2 1 ⟨3, 1⟩ rfl
  refine ⟨?_, ?_, hsafe.1.2 2 _ rfl, xs, hxs, hsize⟩
  · decide +kernel
  · decide +kernel

end SignalGraph
