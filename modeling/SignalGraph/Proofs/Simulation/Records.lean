import SignalGraph.Proofs.Arrays
import SignalGraph.Proofs.Arithmetic.Blocks
import SignalGraph.Proofs.Simulation.Sizes

namespace SignalGraph

variable {α : Type} [Scalar α]

theorem Backend.build_steps {backend : Backend} {net : Network α} {dt : α} {s : Simulator α}
    (hb : backend.engine.build net dt = .ok s) : s.steps = 0 := by
  obtain ⟨c, -, rfl⟩ := Backend.build_eq_ok.1 hb
  cases backend <;> rfl

theorem Backend.build_kernel [Scalar.Exact α] {backend : Backend} {net : Network α} {dt : α}
    {s : Simulator α} (hb : backend.engine.build net dt = .ok s) :
    s.kernel = Kernel.sequential := by
  obtain ⟨c, -, rfl⟩ := Backend.build_eq_ok.1 hb
  cases backend with
  | cpu => rfl
  | batched => exact Kernel.sequential_eq_blocked.symm

namespace Simulator

/-- The recorder has the time of each step and, for each probe, what values of which `P` is known
have at its place, step by step. -/
structure Records (s : Simulator α) (P : Nat → Values α → Prop) : Prop where
  times : s.recorder.times.size = s.steps
  probes : s.recorder.probes = s.circuit.probes
  sizes : s.recorder.sizes = s.circuit.probes.map (s.circuit.sizes.getD · 0)
  samples : ∃ vs : List (Values α), vs.length = s.steps ∧
    s.recorder.samples = s.circuit.probes.map (fun i => (vs.flatMap (·.of i)).toArray) ∧
      ∀ k v, vs[k]? = some v → s.circuit.Sized v ∧ P k v

namespace Records

variable {s : Simulator α} {P Q : Nat → Values α → Prop} {net : Network α} {dt : α}

theorem start {backend : Backend} (hb : backend.engine.build net dt = .ok s) : s.Records P := by
  obtain ⟨c, -, rfl⟩ := Backend.build_eq_ok.1 hb
  cases backend <;> exact ⟨rfl, rfl, rfl, [], rfl, rfl, nofun⟩

omit [Scalar α] in
theorem withValues (h : s.Records P) (values : Values α) : Records { s with values } P :=
  ⟨h.times, h.probes, h.sizes, h.samples⟩

omit [Scalar α] in
theorem imp (h : s.Records P) (hpq : ∀ k v, P k v → Q k v) : s.Records Q := by
  obtain ⟨vs, hlength, hsamples, hall⟩ := h.samples
  exact ⟨h.times, h.probes, h.sizes, vs, hlength, hsamples,
    fun k v hk => ⟨(hall k v hk).1, hpq k v (hall k v hk).2⟩⟩

/-- One step adds one time, and the value of each probe to its samples. -/
theorem next (h : s.Records P) {v : Values α} (hv : s.circuit.Sized v) (hp : P s.steps v) :
    (s.next v).Records P := by
  obtain ⟨vs, hlength, hsamples, hall⟩ := h.samples
  refine ⟨by simp [Simulator.next, Recorder.record, h.times], h.probes, h.sizes, vs ++ [v],
    by rw [List.length_append, hlength]; rfl, ?_, fun k u hk => ?_⟩
  · simp [Simulator.next, Recorder.record, hsamples, h.probes, List.zipWith_map_left,
      List.zipWith_self, List.flatMap_append]
  · rcases Nat.lt_or_ge k vs.length with hlt | hge
    · rw [List.getElem?_append_left hlt] at hk
      exact hall k u hk
    · rw [List.getElem?_append_right hge, List.getElem?_singleton] at hk
      split at hk
      · rename_i hzero
        cases hk
        obtain rfl : k = s.steps := by omega
        exact ⟨hv, hp⟩
      · cases hk

end Records

omit [Scalar α] in
/-- A probe is on the part of its object. -/
theorem probe_place {s : Simulator α} {net : Network α} {p : Nat} {w : Handle}
    (hprobes : s.circuit.probes = net.probes.toList.map (·.id)) (hp : net.probes[p]? = some w) :
    s.circuit.probes[p]? = some w.id := by
  rw [hprobes]
  simp [hp]

/-- The samples of a probe on an object: a value of it for each step, one behind the other. -/
theorem Records.sampled {s : Simulator α} {P : Nat → Values α → Prop} {net : Network α} {dt : α}
    (h : s.Records P) (hm : s.circuit.Made net dt) {w : Handle} {p : Nat}
    (hw : net.holds w = true) (hp : net.probes[p]? = some w) :
    ∃ xs : Array α, s.recorder.samples[p]? = some xs ∧ xs.size = s.steps * w.size ∧
      ∀ k < s.steps, ∃ v : Values α, P k v ∧ (v.of w.id).length = w.size ∧
        ∀ j < w.size, xs[k * w.size + j]? = (v.of w.id)[j]? := by
  obtain ⟨vs, hcount, hsamples, hall⟩ := h.samples
  have hblocks : ∀ xs ∈ vs.map (·.of w.id), xs.length = w.size := by
    refine List.forall_mem_map.2 fun v hv => ?_
    obtain ⟨k, hk⟩ := List.mem_iff_getElem?.1 hv
    exact hm.read_length (hall k v hk).1 hw
  obtain ⟨hlength, hblock⟩ := flatten_blocks hblocks
  rw [← List.flatMap_def] at hlength hblock
  refine ⟨(vs.flatMap (·.of w.id)).toArray, ?_, ?_, fun k hk => ?_⟩
  · rw [hsamples, List.getElem?_map, probe_place hm.probes hp]
    rfl
  · rw [List.size_toArray, hlength, List.length_map, hcount]
  · have hkv := List.getElem?_eq_getElem (hcount.symm ▸ hk : k < vs.length)
    refine ⟨vs[k], (hall k _ hkv).2, hm.read_length (hall k _ hkv).1 hw, fun j hj => ?_⟩
    rw [List.getElem?_toArray]
    exact hblock k j _ (by rw [List.getElem?_map, hkv]; rfl) hj

/-- What a probe on an object has recorded. The entries of its trace are its samples, row by row. -/
theorem Records.trace {s : Simulator α} {P : Nat → Values α → Prop} {net : Network α} {dt : α}
    (h : s.Records P) (hm : s.circuit.Made net dt) {w : Handle} {p : Nat}
    (hw : net.holds w = true) (hp : net.probes[p]? = some w) :
    ∃ (xs : Array α) (m : Matrix α), s.recorder.samples[p]? = some xs ∧
      xs.size = s.steps * w.size ∧ s.recording.traces[p]? = some m ∧ m.nrows = s.steps ∧
        m.ncols = w.size ∧
        (∀ k < s.steps, ∀ j < w.size, xs[k * w.size + j]? = some (m.entry k j)) ∧
        ∀ k < s.steps, ∃ v, P k v ∧ m.row k = v.of w.id := by
  obtain ⟨xs, hxs, hlength, hsteps⟩ := h.sampled hm hw hp
  have hsize : s.recorder.sizes[p]? = some w.size := by
    rw [h.sizes, List.getElem?_map, probe_place hm.probes hp, Option.map_some, hm.sizes_holds hw]
  refine ⟨xs, .ofFn s.recorder.times.size w.size fun i j => xs.getD (i * w.size + j) default, hxs,
    hlength, ?_, h.times, rfl, fun k hk j hj => ?_, fun k hk => ?_⟩
  · simp [recording, Recorder.data, List.getElem?_zipWith, hxs, hsize]
  · have hlt : k * w.size + j < xs.size := hlength ▸ Matrix.place_lt hk hj
    rw [Matrix.entry_ofFn _ (h.times.symm ▸ hk) hj, Array.getElem?_eq_getElem hlt]
    simp [Array.getD, hlt]
  · obtain ⟨v, hv, hl, hsample⟩ := hsteps k hk
    refine ⟨v, hv, ?_⟩
    rw [Matrix.row_ofFn _ (h.times.symm ▸ hk)]
    refine List.ext_getElem (by simp [hl]) fun j hj hj' => ?_
    rw [List.getElem_map, List.getElem_range, Array.getD_eq_getD_getElem?, hsample j (hl ▸ hj'),
      List.getElem?_eq_getElem hj']
    rfl

end Simulator

end SignalGraph
