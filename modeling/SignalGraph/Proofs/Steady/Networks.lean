import SignalGraph.Proofs.Lowering.Outputs
import SignalGraph.Proofs.Simulation.Records

namespace SignalGraph

variable {α : Type} [Scalar α]

/-- An object of `size` values that puts out `out` in every step, given the values of the objects
that it reads. -/
inductive NetworkObject.Yields (value : Nat → List α) (size : Nat) (out : List α) :
    NetworkObject α → Prop
  | source : Yields value size out (.source (.constant out))
  | linear {inputs : List Handle} {ms : List (Matrix α)} :
    out = Matrix.weightedSum size (inputs.map fun h => value h.id) ms →
      Yields value size out (.linear inputs ms)
  | direct {input : Handle} {function : VectorFunction α} {params : NonlinearParams α} :
    params.neuronType = .direct → out = function (value input.id) →
      Yields value size out (.nonlinear input function params)

namespace NetworkObject.Yields

variable {value value' : Nat → List α} {size : Nat} {out : List α} {o : NetworkObject α}

/-- The value depends on those of the objects read only. -/
theorem congr (h : o.Yields value size out) (hv : ∀ w ∈ o.reads, value' w.id = value w.id) :
    o.Yields value' size out := by
  cases h with
  | source => exact .source
  | @linear inputs ms ho =>
    refine .linear ?_
    rw [ho]
    exact congrArg (Matrix.weightedSum size · ms) (List.map_congr_left hv).symm
  | @direct input function params htype ho =>
    refine .direct htype ?_
    rw [hv input (List.mem_singleton_self input)]
    exact ho

/-- The object can be made ready, and its part puts out the value. -/
theorem part (h : o.Yields value size out) (hl : out.length = size) (dt : α) (place : Nat) :
    ∃ p, Circuit.part dt place ⟨o, size⟩ = .ok p ∧
      ∀ (t : α) (own : List α) (read : Nat → List α), (∀ w ∈ o.reads, read w.id = value w.id) →
        p.output Kernel.sequential t place size own read = .ok out := by
  cases h with
  | source => exact ⟨_, rfl, fun t own read _ => rfl⟩
  | @linear inputs ms ho =>
    refine ⟨_, rfl, ?_⟩
    intro t own read hr
    have hmap : (inputs.map (·.id)).map read = inputs.map fun w => value w.id := by
      rw [List.map_map]
      exact List.map_congr_left hr
    rw [Part.output, linear_output, hmap, ho]
  | @direct input function params htype ho =>
    refine ⟨.direct input.id function size, by simp only [Circuit.part, htype], ?_⟩
    intro t own read hr
    rw [Part.output, hr input (List.mem_singleton_self input), ← ho, checkOutput, if_pos hl]

end NetworkObject.Yields

theorem Circuit.partsFrom_total {dt : α} {rs : List (ObjectRecord α)}
    (h : ∀ r ∈ rs, ∀ place, ∃ p, part dt place r = .ok p) (place : Nat) :
    ∃ ps, partsFrom dt place rs = .ok ps := by
  induction rs generalizing place with
  | nil => exact ⟨[], rfl⟩
  | cons r rs ih =>
    obtain ⟨p, hp⟩ := h r List.mem_cons_self place
    obtain ⟨ps, hps⟩ := ih (fun q hq => h q (List.mem_cons_of_mem r hq)) (place + 1)
    refine ⟨p :: ps, ?_⟩
    simp only [partsFrom, bind_eq_ok, pure_eq_ok]
    exact ⟨p, hp, ps, hps, rfl⟩

namespace Network

/-- Every object has a value. -/
def Steady (net : Network α) (value : Nat → List α) : Prop :=
  ∀ (i : Nat) (r : ObjectRecord α), net.objects[i]? = some r →
    r.object.Yields value r.size (value i) ∧ (value i).length = r.size

namespace Steady

variable {net net' : Network α} {value : Nat → List α}

theorem empty (label : Option String) (value : Nat → List α) :
    (Network.empty label : Network α).Steady value := by
  intro i r hr
  cases hr

/-- What a handle names has a value of the size that it tells. -/
theorem length (hs : net.Steady value) {w : Handle} (hw : net.holds w = true) :
    (value w.id).length = w.size := by
  obtain ⟨r, hr, hsize⟩ := holds_iff.1 hw
  rw [(hs _ r hr).2, hsize]

/-- An object that has a value is added. -/
theorem create (hs : net.Steady value) (hw : net.WellFormed) {q : Request α} {h : Handle}
    {out : List α} (hc : net.create q = .ok (h, net'))
    (hy : q.object.Yields value q.size out) (hl : out.length = q.size) :
    net'.Steady (Function.update value net.size out) := by
  have hne : ∀ i < net.size, Function.update value net.size out i = value i := fun i hi =>
    Function.update_of_ne (Nat.ne_of_lt hi) _ _
  obtain ⟨⟨-, rfl⟩, hreads, -⟩ := create_eq_ok.1 hc
  intro i r hr
  simp only [push, Array.getElem?_push] at hr
  split at hr
  · rename_i hi
    cases hr
    have hi' : i = net.size := hi
    rw [hi', Function.update_self]
    exact ⟨hy.congr fun w hr => hne w.id (holds_lt (hreads w hr)), hl⟩
  · have hi := (Array.getElem?_eq_some_iff.1 hr).1
    rw [hne i hi]
    obtain ⟨hyields, hlength⟩ := hs i r hr
    refine ⟨hyields.congr fun w hwr => hne w.id ?_, hlength⟩
    exact Nat.lt_trans ((hw.sound i r hr).reads w hwr).1 hi

/-- A steady network can be simulated with every time step. -/
theorem made (hs : net.Steady value) {dt : α} (hpos : Scalar.less Scalar.zero dt = true)
    (hfin : Scalar.isFinite dt = true) : ∃ c : Circuit α, c.Made net dt := by
  have hparts : ∀ r ∈ net.objects.toList, ∀ place, ∃ p, Circuit.part dt place r = .ok p := by
    intro r hr place
    obtain ⟨i, hi⟩ := List.mem_iff_getElem?.1 hr
    rw [Array.getElem?_toList] at hi
    obtain ⟨hy, hl⟩ := hs i r hi
    obtain ⟨p, hp, -⟩ := hy.part hl dt place
    exact ⟨p, hp⟩
  obtain ⟨ps, hps⟩ := Circuit.partsFrom_total hparts 0
  have hc : Circuit.ofNetwork net dt =
      .ok ⟨dt, ps.toArray, net.objects.map (·.size), net.probes.toList.map (·.id)⟩ := by
    simp only [Circuit.ofNetwork, hpos, hfin, hps]
    rfl
  exact ⟨_, Circuit.ofNetwork_eq_ok.1 hc⟩

end Steady

/-- The values of all objects. -/
def values (net : Network α) (value : Nat → List α) : Values α :=
  Array.ofFn fun i : Fin net.size => value i

omit [Scalar α] in
theorem values_of {net : Network α} {value : Nat → List α} {i : Nat} (hi : i < net.size) :
    (net.values value).of i = value i := by
  simp [values, Values.of, Array.getD, hi]

namespace Steady

variable {net : Network α} {value : Nat → List α} {dt : α}

/-- The values of the objects settle whatever values there were, at any time. -/
theorem settles (hs : net.Steady value) (hw : net.WellFormed) {c : Circuit α} (hm : c.Made net dt)
    (t : α) (old : Values α) : c.Settles Kernel.sequential t old (net.values value) := by
  refine ⟨by rw [values, Array.size_ofFn, hm.size], ?_⟩
  intro i p hp
  obtain ⟨r, hr, hpart⟩ := hm.record hp
  have hi : i < net.size := (Array.getElem?_eq_some_iff.1 hr).1
  obtain ⟨hy, hl⟩ := hs i r hr
  obtain ⟨q, hq, hout⟩ := hy.part hl dt i
  cases hq.symm.trans hpart
  rw [hm.sizes_getD hr, values_of hi]
  refine hout t (old.of i) _ ?_
  intro w hwr
  exact values_of (Nat.lt_trans ((hw.sound i r hr).reads w hwr).1 hi)

theorem sized (hs : net.Steady value) {c : Circuit α} (hm : c.Made net dt) :
    c.Sized (net.values value) := by
  refine ⟨by rw [values, Array.size_ofFn, hm.size], ?_⟩
  intro i hi
  rw [hm.size] at hi
  have hr : net.objects[i]? = some net.objects[i] := Array.getElem?_eq_getElem hi
  rw [values_of hi, hm.sizes_getD hr, (hs i _ hr).2]

/-- A simulator of a steady network, which has recorded the values of the objects. -/
structure Shown (net : Network α) (value : Nat → List α) (dt : α) (s : Simulator α) : Prop where
  simulates : s.Simulates net dt
  kernel : s.kernel = Kernel.sequential
  records : s.Records fun _ v => v = net.values value

/-- A step succeeds, whatever the values were before it. -/
theorem step (hs : net.Steady value) {s : Simulator α} (h : Shown net value dt s) :
    ∃ s' : Simulator α, s.step = (.ok (), s') ∧ s'.steps = s.steps + 1 ∧ Shown net value dt s' := by
  have hm := h.simulates.made
  have hsettles := hs.settles h.simulates.wellFormed hm s.nextTime s.values
  rw [← h.kernel] at hsettles
  have hstep := (Simulator.step_eq_ok_iff h.simulates.ready).2 ⟨_, hsettles, rfl⟩
  have hnext := h.simulates.step
  rw [hstep] at hnext
  exact ⟨_, hstep, rfl, hnext, h.kernel, h.records.next (hs.sized hm) rfl⟩

/-- Every run succeeds. -/
theorem run (hs : net.Steady value) {s : Simulator α} (h : Shown net value dt s) (n : Nat) :
    ∃ s' : Simulator α, s.run n = (.ok (), s') ∧ s'.steps = s.steps + n ∧ Shown net value dt s' := by
  induction n generalizing s with
  | zero => exact ⟨s, rfl, rfl, h⟩
  | succ n ih =>
    obtain ⟨s₁, hstep, hsteps, h₁⟩ := hs.step h
    obtain ⟨s', hrun, hn, h'⟩ := ih h₁
    refine ⟨s', ?_, by omega, h'⟩
    rw [Simulator.run, hstep]
    exact hrun

/-- A steady network runs for any number of steps, and the traces of its probes have the value of
the probed object in each of them. -/
theorem traces [Scalar.Exact α] (hs : net.Steady value) (hw : net.WellFormed)
    (hpos : Scalar.less Scalar.zero dt = true) (hfin : Scalar.isFinite dt = true)
    (backend : Backend) (n : Nat) :
    ∃ s s' : Simulator α, backend.engine.build net dt = .ok s ∧ s.run n = (.ok (), s') ∧
      s'.recording.steps = n ∧ ∀ (p : Nat) (w : Handle), net.probes[p]? = some w →
        ∃ m : Matrix α, s'.recording.traces[p]? = some m ∧ m.nrows = n ∧ m.ncols = w.size ∧
          ∀ k < n, m.row k = value w.id := by
  obtain ⟨c, hc⟩ := hs.made hpos hfin
  have hb : backend.engine.build net dt = .ok (backend.simulator c) :=
    Backend.build_eq_ok.2 ⟨c, hc, rfl⟩
  obtain ⟨s', hrun, hsteps, h'⟩ := hs.run
    ⟨Backend.simulates hb hw, Backend.build_kernel hb, .start hb⟩ n
  rw [Backend.build_steps hb, Nat.zero_add] at hsteps
  have hrecorded : s'.recording.steps = n := by
    rw [← hsteps, ← h'.records.times]
    exact Array.length_toList
  refine ⟨_, s', hb, hrun, hrecorded, ?_⟩
  intro p w hp
  have hwp : net.holds w = true := hw.probes w (Array.mem_of_getElem? hp)
  obtain ⟨-, m, -, -, hm, hrows, hcols, -, hrow⟩ := h'.records.trace h'.simulates.made hwp hp
  rw [hsteps] at hrows hrow
  refine ⟨m, hm, hrows, hcols, ?_⟩
  intro k hk
  obtain ⟨v, rfl, hv⟩ := hrow k hk
  rw [hv, values_of (holds_lt hwp)]

end Steady

end Network

end SignalGraph
