import SignalGraph.Proofs.Arithmetic.Blocks
import SignalGraph.Proofs.Lowering.Outputs
import SignalGraph.Proofs.Network.Mirrors
import SignalGraph.Proofs.Simulation.Sizes

namespace SignalGraph

variable {α : Type} [Scalar α]

namespace Circuit

variable {net net' : Network α} {dt : α} {c c' : Circuit α}

/-- The objects of both networks are refused for the same reason. -/
theorem partsFrom_together {rs rs' : List (ObjectRecord α)} (place : Nat)
    (h : List.Forall₂ ObjectRecord.Mirrored rs rs') :
    Together (fun _ _ => True) (partsFrom dt place rs) (partsFrom dt place rs') := by
  induction h generalizing place with
  | nil => exact .ok trivial
  | @cons r r' _ _ hr _ ih =>
    have hpart : Together (fun _ _ => True) (part dt place r) (part dt place r') := by
      cases hr with
      | same =>
        cases part dt place r with
        | ok p => exact .ok trivial
        | error e => exact .error e
      | slice => exact .ok trivial
    exact hpart.bind fun p p' _ => (ih (place + 1)).bind fun ps ps' _ => .ok trivial

/-- Circuits are made of both networks or of none. -/
theorem ofNetwork_together (h : net.Mirrors net') (dt : α) :
    Together (fun c c' => c.Made net dt ∧ c'.Made net' dt) (ofNetwork net dt)
      (ofNetwork net' dt) := by
  have hboth : Together (fun _ _ => True) (ofNetwork net dt) (ofNetwork net' dt) := by
    rw [ofNetwork, ofNetwork]
    split
    · exact .error _
    · exact (partsFrom_together 0 h.objects).bind fun ps ps' _ => .ok trivial
  generalize hc : ofNetwork net dt = x at hboth ⊢
  generalize hc' : ofNetwork net' dt = y at hboth ⊢
  cases hboth with
  | ok => exact .ok ⟨ofNetwork_eq_ok.1 hc, ofNetwork_eq_ok.1 hc'⟩
  | error e => exact .error e

/-- What stands at a place of two circuits: the same, or a slice that is in order and the selection by
a matrix. -/
inductive Twins (c : Circuit α) (net : Network α) (i : Nat) : Option (Part α) → Option (Part α) → Prop
  | same (p : Option (Part α)) : Twins c net i p p
  | slice {input : Handle} {indices : List Nat} :
    net.holds input = true → (∀ k ∈ indices, k < input.size) →
      c.sizes.getD i 0 = indices.length →
      Twins c net i (some (.slice input.id indices))
        (some (.linear [input.id] [.selection indices input.size]))

namespace Made

variable (hm : c.Made net dt) (hm' : c'.Made net' dt) (h : net.Mirrors net')

include hm hm' h

theorem parts_size : c.parts.size = c'.parts.size := by
  rw [hm.size, hm'.size, h.size]

theorem twins (hw : net.WellFormed) (i : Nat) : Twins c net i c.parts[i]? c'.parts[i]? := by
  cases hp : c.parts[i]? with
  | none =>
    have hi : c'.parts.size ≤ i := parts_size hm hm' h ▸ Array.getElem?_eq_none_iff.1 hp
    rw [Array.getElem?_eq_none hi]
    exact .same none
  | some p =>
    obtain ⟨r, hr, hpart⟩ := hm.record hp
    obtain ⟨r', hr', hmirrored⟩ := h.object hr
    obtain ⟨p', hp', hpart'⟩ := hm'.part i r' hr'
    rw [hp']
    cases hmirrored with
    | same =>
      cases hpart.symm.trans hpart'
      exact .same _
    | slice input indices =>
      cases hpart
      cases hpart'
      have hs := hw.sound i _ hr
      exact .slice (hs.reads input (List.mem_singleton_self input)).2 hs.fits.2.2 (hm.sizes_getD hr)

theorem evaluate_mirrored [Scalar.Exact α] (hw : net.WellFormed) {values : Values α}
    (hv : c.Sized values) (t : α) (i : Nat) :
    c.evaluate .sequential t values i = c'.evaluate .sequential t values i := by
  have hsizes : c.sizes = c'.sizes := by rw [hm.sizes, hm'.sizes, h.sizes]
  have htwins := twins hm hm' h hw i
  unfold evaluate
  generalize c.parts[i]? = p at htwins
  generalize c'.parts[i]? = p' at htwins
  cases htwins with
  | same => rw [hsizes]
  | @slice input indices hheld hlt hsize =>
    have hread := hm.read_length hv hheld
    have happly := Matrix.selection_apply (x := values.of input.id) (hread ▸ hlt)
    rw [hread] at happly
    have hzeros := Matrix.zipWith_zeros_add (indices.map fun k => (values.of input.id).getD k Scalar.zero)
    rw [List.length_map, ← hsize, hsizes] at hzeros
    have hkernel : Kernel.sequential (Matrix.selection indices input.size) (values.of input.id)
        (List.replicate (c'.sizes.getD i 0) Scalar.zero) =
          indices.map fun k => (values.of input.id).getD k Scalar.zero := by
      rw [Kernel.sequential_eq, happly, hzeros]
    simp only [List.zip_cons_cons, List.zip_nil_left, List.foldl_cons, List.foldl_nil, hkernel]
    simp

theorem advance_mirrored (hw : net.WellFormed) : c.advance = c'.advance := by
  funext values i
  have hdt : c.dt = c'.dt := hm.dt_eq.trans hm'.dt_eq.symm
  have htwins := twins hm hm' h hw i
  unfold advance
  generalize c.parts[i]? = p at htwins
  generalize c'.parts[i]? = p' at htwins
  cases htwins with
  | same => rw [hdt]
  | slice => rfl

theorem depths_mirrored (hw : net.WellFormed) : c.depths = c'.depths := by
  have hreads : c.parts.map Part.stepInputs = c'.parts.map Part.stepInputs := by
    refine Array.ext_getElem? fun i => ?_
    rw [Array.getElem?_map, Array.getElem?_map]
    have htwins := twins hm hm' h hw i
    generalize c.parts[i]? = p at htwins
    generalize c'.parts[i]? = p' at htwins
    cases htwins <;> rfl
  have hfold (c : Circuit α) : c.depths = (c.parts.map Part.stepInputs).foldl
      (fun ds inputs => ds.push ((inputs.map fun i => ds.getD i 0 + 1).max?.getD 0)) #[] := by
    rw [Array.foldl_map]
    rfl
  rw [hfold, hfold, hreads]

end Made

end Circuit

namespace Simulator

/-- The simulator with another circuit. -/
def on (s : Simulator α) (c : Circuit α) : Simulator α := { s with circuit := c }

variable {net net' : Network α} {dt : α} {s : Simulator α} {c : Circuit α}

section

variable (hs : s.Simulates net dt) (hm : c.Made net' dt) (h : net.Mirrors net')

include hs hm h

theorem sweep_mirrored [Scalar.Exact α] (t : α) (schedule : List (List Nat)) {values : Values α}
    (hv : s.circuit.Sized values) :
    sweep s.circuit .sequential t schedule values = sweep c .sequential t schedule values := by
  induction schedule generalizing values with
  | nil => rfl
  | cons batch rest ih =>
    have heval : s.circuit.evaluate .sequential t values = c.evaluate .sequential t values :=
      funext fun i => hs.made.evaluate_mirrored hm h hs.wellFormed hv t i
    have hbatch := hs.made.sweep_sized hs.wellFormed Kernel.sequential_rowwise (t := t) [batch] hv
    rw [sweep, sweep, ← heval]
    rw [sweep] at hbatch
    split
    · rfl
    · rename_i outputs ho
      rw [ho] at hbatch
      exact ih hbatch

/-- Both simulators make the same step. -/
theorem step_on [Scalar.Exact α] (hk : s.kernel = .sequential) :
    (s.on c).step = (s.step.1, s.step.2.on c) := by
  have hdt : c.dt = s.circuit.dt := hm.dt_eq.trans hs.made.dt_eq.symm
  have htime : (s.on c).nextTime = s.nextTime := congrArg (Scalar.ofNat (s.steps + 1) * ·) hdt
  have hadvance : c.advanceAll = s.circuit.advanceAll := by
    funext values
    rw [Circuit.advanceAll, Circuit.advanceAll, hs.made.parts_size hm h,
      hs.made.advance_mirrored hm h hs.wellFormed]
  have hnext : ∀ values, (s.on c).next values = (s.next values).on c := by
    intro values
    simp only [on] at htime
    simp only [next, on, htime, hadvance]
  have hsweep := sweep_mirrored hs hm h s.nextTime s.schedule hs.sized
  rw [← hk] at hsweep
  have hon : sweep (s.on c).circuit (s.on c).kernel s.nextTime (s.on c).schedule (s.on c).values =
      sweep s.circuit s.kernel s.nextTime s.schedule s.values := hsweep.symm
  rw [step_eq, step_eq, htime, hon]
  generalize sweep s.circuit s.kernel s.nextTime s.schedule s.values = outcome
  rcases outcome with ⟨_ | _, values⟩
  · rfl
  · simp only [hnext]

theorem run_on [Scalar.Exact α] (hk : s.kernel = .sequential) (n : Nat) :
    (s.on c).run n = ((s.run n).1, (s.run n).2.on c) := by
  induction n generalizing s with
  | zero => rfl
  | succ n ih =>
    have hstep := hs.step
    have hkernel : s.step.2.kernel = .sequential := (step_kernel s).trans hk
    rw [run, run, step_on hs hm h hk]
    generalize s.step = outcome at hstep hkernel
    rcases outcome with ⟨_ | _, u⟩
    · rfl
    · exact ih hstep hkernel

end

end Simulator

/-- The simulator of the network without slices, but for its circuit. -/
theorem Backend.simulator_on {net net' : Network α} {dt : α} {c c' : Circuit α} (b : Backend)
    (hm : c.Made net dt) (hm' : c'.Made net' dt) (h : net.Mirrors net') (hw : net.WellFormed) :
    b.simulator c' = (b.simulator c).on c' := by
  have hinitial : c'.initial = c.initial := by
    rw [Circuit.initial, Circuit.initial, hm.sizes, hm'.sizes, h.sizes]
  have hrecorder : Recorder.ofCircuit c' = Recorder.ofCircuit c := by
    rw [Recorder.ofCircuit, Recorder.ofCircuit, hm.dt_eq, hm'.dt_eq, hm.probes, hm'.probes, hm.sizes,
      hm'.sizes, h.probes, h.sizes]
  cases b with
  | cpu =>
    have hone : c'.oneByOne = c.oneByOne := by
      rw [Circuit.oneByOne, Circuit.oneByOne, hm.parts_size hm' h]
    simp only [simulator, Simulator.start, Simulator.on, hinitial, hrecorder, hone]
  | batched =>
    have hlevels : c'.levels = c.levels := by
      rw [Circuit.levels, Circuit.levels, hm.depths_mirrored hm' h hw]
    simp only [simulator, Simulator.start, Simulator.on, hinitial, hrecorder, hlevels]

/-- Simulators of both networks, or the same refusal. Their runs go on for the same number of steps
and stop for the same reason, with the same values and the same recording. -/
theorem Backend.mirrored [Scalar.Exact α] {net net' : Network α} (b : Backend)
    (h : net.Mirrors net') (hw : net.WellFormed) (dt : α) :
    Together (fun s s' => ∀ n, (s.run n).1 = (s'.run n).1 ∧
        (s.run n).2.steps = (s'.run n).2.steps ∧ (s.run n).2.values = (s'.run n).2.values ∧
          (s.run n).2.recording = (s'.run n).2.recording)
      (b.engine.build net dt) (b.engine.build net' dt) := by
  have htogether := Circuit.ofNetwork_together h dt
  rw [build_eq, build_eq]
  generalize hc : Circuit.ofNetwork net dt = x at htogether ⊢
  generalize Circuit.ofNetwork net' dt = y at htogether ⊢
  cases htogether with
  | error e => exact .error e
  | @ok c c' hmade =>
    obtain ⟨hm, hm'⟩ := hmade
    refine .ok fun n => ?_
    have hs : (b.simulator c).Simulates net dt :=
      simulates (by rw [build_eq, hc]; rfl) hw
    have hk : (b.simulator c).kernel = .sequential := by
      cases b with
      | cpu => rfl
      | batched => exact Kernel.sequential_eq_blocked.symm
    rw [b.simulator_on hm hm' h hw, Simulator.run_on hs hm' h hk]
    exact ⟨rfl, rfl, rfl, rfl⟩

end SignalGraph
