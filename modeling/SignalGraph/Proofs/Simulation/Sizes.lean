import SignalGraph.Proofs.Simulation.Stepping

namespace SignalGraph

variable {α : Type}

theorem checkOutput_length {object expected : Nat} {values out : List α}
    (h : checkOutput object expected values = .ok out) : out.length = expected := by
  unfold checkOutput at h
  split at h
  · cases h
    assumption
  · cases h

theorem Signal.sample_length {signal : Signal α} {object : Nat} {t : α} {out : List α}
    (h : signal.sample object t = .ok out) : out.length = signal.size := by
  cases signal with
  | constant values =>
    cases h
    rfl
  | timed size function => exact checkOutput_length h

variable [Scalar α]

/-- A kernel whose product has a number for each row and each entry of the accumulator. -/
def Kernel.Rowwise (kernel : Kernel α) : Prop :=
  ∀ a x acc, (kernel a x acc).length = min a.nrows acc.length

theorem Kernel.sequential_rowwise : Rowwise (sequential : Kernel α) := by
  intro a x acc
  simp [sequential, Matrix.rows]

theorem Kernel.blocked_rowwise : Rowwise (blocked : Kernel α) := by
  intro a x acc
  simp [blocked, Matrix.rows]

theorem Backend.simulator_rowwise (b : Backend) (c : Circuit α) :
    (b.simulator c).kernel.Rowwise := by
  cases b with
  | cpu => exact Kernel.sequential_rowwise
  | batched => exact Kernel.blocked_rowwise

theorem Ridge.solve_ncols {activities targets decoders : Matrix α}
    (h : Ridge.solve activities targets = some decoders) : decoders.ncols = targets.ncols := by
  simp only [Ridge.solve] at h
  split at h
  · cases h
  · obtain ⟨rows, -, rfl⟩ := Option.map_eq_some_iff.1 h
    rfl

theorem Ridge.solve_nrows {activities targets decoders : Matrix α}
    (h : Ridge.solve activities targets = some decoders) : decoders.nrows = activities.ncols := by
  simp only [Ridge.solve] at h
  split at h
  · cases h
  · obtain ⟨rows, -, rfl⟩ := Option.map_eq_some_iff.1 h
    rfl

namespace Ensemble

/-- The directions and points that are drawn have an entry for each dimension. -/
theorem drawPopulation_shapes (count dims : Nat) (g : Generator) :
    let drawn : (Population α × Matrix α) × Generator := drawPopulation count dims g
    drawn.1.1.encoders.nrows = count ∧ drawn.1.1.encoders.ncols = dims ∧
      drawn.1.2.nrows = evaluationPoints ∧ drawn.1.2.ncols = dims := by
  unfold drawPopulation
  generalize evaluationPoints = n
  exact ⟨rfl, rfl, rfl, rfl⟩

/-- An ensemble has the decoders that the rates at its evaluation points and the wanted values there
ask for; it is refused where there are none. -/
theorem build_eq (function : VectorFunction α) (size : Nat) (params : NonlinearParams α)
    (object : Nat) {inputSize : Nat} (hcount : params.neuronCount ≠ 0) (hsize : inputSize ≠ 0) :
    ∃ (u : Population α) (points : Matrix α),
      (u.encoders.nrows = params.neuronCount ∧ u.encoders.ncols = inputSize ∧
        points.nrows = evaluationPoints ∧ points.ncols = inputSize) ∧
      build function inputSize size params object =
        (targets function params.radius size object points).bind fun wanted =>
          (Ridge.solve (u.activities points) wanted).elim
            (.error (.simulationFailed (.silentEnsemble object)))
            fun decoders => .ok ⟨u, params.radius, decoders⟩ := by
  have hshapes := drawPopulation_shapes (α := α) params.neuronCount inputSize
    (Generator.ofSeed (mixSeed params.seed (UInt64.ofNat object)))
  have hargs : (params.neuronCount = 0 || inputSize = 0) = false := by simp [hcount, hsize]
  simp only [build, hargs]
  generalize drawPopulation (α := α) params.neuronCount inputSize
    (Generator.ofSeed (mixSeed params.seed (UInt64.ofNat object))) = drawn at hshapes
  refine ⟨drawn.1.1, drawn.1.2, hshapes, ?_⟩
  obtain ⟨⟨u, points⟩, g⟩ := drawn
  cases targets function params.radius size object points with
  | error e => rfl
  | ok wanted =>
    simp only [bind, Except.bind]
    cases Ridge.solve (u.activities points) wanted with
    | none => rfl
    | some decoders => rfl

/-- What the evaluation of an ensemble multiplies has matching shapes, and it decodes as many numbers
as its object has. -/
theorem build_shapes {function : VectorFunction α} {inputSize size : Nat}
    {params : NonlinearParams α} {object : Nat} {e : Ensemble α}
    (h : build function inputSize size params object = .ok e) :
    e.encoders.ncols = inputSize ∧ e.decoders.nrows = e.encoders.nrows ∧
      e.decoders.ncols = size := by
  have hargs : params.neuronCount ≠ 0 ∧ inputSize ≠ 0 := by
    simp only [build, guard_eq_ok] at h
    simpa using h.1
  obtain ⟨u, points, hshapes, hbuild⟩ := build_eq function size params object hargs.1 hargs.2
  rw [hbuild] at h
  obtain ⟨wanted, hwanted, h⟩ := bind_eq_ok.1 h
  cases hdecoders : Ridge.solve (u.activities points) wanted with
  | none =>
    rw [hdecoders] at h
    cases h
  | some decoders =>
    rw [hdecoders] at h
    cases h
    simp only [targets, bind_eq_ok, pure_eq_ok] at hwanted
    obtain ⟨rows, -, rfl⟩ := hwanted
    exact ⟨hshapes.2.1, Ridge.solve_nrows hdecoders, Ridge.solve_ncols hdecoders⟩

end Ensemble

omit [Scalar α] in
theorem foldl_kernel_length {kernel : Kernel α} (hk : kernel.Rowwise) {n : Nat}
    {read : Nat → List α} {ps : List (Nat × Matrix α)} (hps : ∀ p ∈ ps, p.2.nrows = n)
    {acc : List α} (ha : acc.length = n) :
    (ps.foldl (fun acc (i, m) => kernel m (read i) acc) acc).length = n := by
  induction ps generalizing acc with
  | nil => exact ha
  | cons p ps ih =>
    refine ih (fun q hq => hps q (List.mem_cons_of_mem _ hq)) ?_
    rw [hk, ha, hps p List.mem_cons_self, Nat.min_self]

namespace Circuit

variable {net : Network α} {dt : α} {c : Circuit α} {kernel : Kernel α}

/-- A value for each part, of the length that its object has. -/
structure Sized (c : Circuit α) (values : Values α) : Prop where
  size : values.size = c.parts.size
  length : ∀ i < c.parts.size, (values.of i).length = c.sizes.getD i 0

namespace Made

/-- What a handle reads has the length that the handle tells. -/
theorem read_length (hm : c.Made net dt) {values : Values α} (hv : c.Sized values) {h : Handle}
    (hh : net.holds h = true) : (values.of h.id).length = h.size := by
  obtain ⟨r, hr, hs⟩ := Network.holds_iff.1 hh
  have hlt : h.id < c.parts.size := by
    rw [hm.size]
    exact Network.holds_lt hh
  rw [hv.length _ hlt, hm.sizes_getD hr, hs]

/-- What a part puts out from values of the right lengths has the right length. -/
theorem output_length (hm : c.Made net dt) (hw : net.WellFormed) (hk : kernel.Rowwise)
    {values : Values α} (hv : c.Sized values) {t : α} {i : Nat} {p : Part α} {out : List α}
    (hp : c.parts[i]? = some p)
    (ho : p.output kernel t i (c.sizes.getD i 0) (values.of i) values.of = .ok out) :
    out.length = c.sizes.getD i 0 := by
  obtain ⟨⟨o, n⟩, hr, hpart⟩ := hm.record hp
  have hs := hw.sound i _ hr
  have hown : (values.of i).length = n := by
    rw [hv.length i (Array.getElem?_eq_some_iff.1 hp).1, hm.sizes_getD hr]
  rw [hm.sizes_getD hr] at ho ⊢
  cases o with
  | source signal =>
    cases hpart
    exact (Signal.sample_length ho).trans hs.fits.1
  | linear inputs coefficients =>
    cases hpart
    cases ho
    refine foldl_kernel_length hk ?_ List.length_replicate
    rintro ⟨j, m⟩ hj
    rw [List.zip_map_left] at hj
    obtain ⟨q, hq, he⟩ := List.mem_map.1 hj
    cases he
    exact (hs.fits.2.2.2 q hq).1
  | nonlinear input function params =>
    simp only [Circuit.part] at hpart
    split at hpart
    · cases hpart
      exact checkOutput_length ho
    · simp only [Except.map] at hpart
      split at hpart
      · cases hpart
      · rename_i e he
        cases hpart
        cases ho
        rw [Ensemble.evaluate, List.length_map, List.length_range, (Ensemble.build_shapes he).2.2]
  | feedback input integrand =>
    cases hpart
    cases ho
    exact hown
  | filter input tau =>
    cases hpart
    cases ho
    rw [List.length_zipWith, hown, hm.read_length hv (hs.reads input (List.mem_singleton_self _)).2,
      hs.fits.1, Nat.min_self]
  | slice input indices =>
    cases hpart
    cases ho
    rw [List.length_map]
    exact hs.fits.1

theorem initial_sized (hm : c.Made net dt) : c.Sized c.initial := by
  refine ⟨hm.initial_size, ?_⟩
  intro i hi
  have hi' : i < c.sizes.size := by
    rwa [hm.sizes, Array.size_map, ← Network.size, ← hm.size]
  simp [initial, Values.of, Array.getD, hi']

end Made

omit [Scalar α] in
theorem Sized.set {values : Values α} (hv : c.Sized values) {i : Nat} {x : List α}
    (hx : i < c.parts.size → x.length = c.sizes.getD i 0) :
    c.Sized (values.setIfInBounds i x) := by
  refine ⟨Array.size_setIfInBounds.trans hv.size, ?_⟩
  intro j hj
  by_cases hi : i < values.size
  · rw [Values.of_set hi]
    split
    · rename_i he
      subst he
      exact hx hj
    · exact hv.length j hj
  · rw [Array.setIfInBounds_eq_of_size_le (Nat.le_of_not_lt hi)]
    exact hv.length j hj

omit [Scalar α] in
theorem Sized.write {values : Values α} {batch : List Nat} {outputs : List (List α)}
    (hv : c.Sized values)
    (h : List.Forall₂ (fun i (x : List α) => i < c.parts.size → x.length = c.sizes.getD i 0)
      batch outputs) : c.Sized (Simulator.write values (batch.zip outputs)) := by
  induction h generalizing values with
  | nil => exact hv
  | cons hx _ ih =>
    rw [List.zip_cons_cons, Simulator.write]
    exact ih (hv.set hx)

/-- Also a sweep that fails leaves values of the right lengths. -/
theorem Made.sweep_sized (hm : c.Made net dt) (hw : net.WellFormed) (hk : kernel.Rowwise) {t : α}
    (schedule : List (List Nat)) {values : Values α} (hv : c.Sized values) :
    c.Sized (Simulator.sweep c kernel t schedule values).2 := by
  induction schedule generalizing values with
  | nil => exact hv
  | cons batch rest ih =>
    rw [Simulator.sweep]
    split
    · exact hv
    · rename_i outputs ho
      refine ih (hv.write ((mapM_eq_ok.1 ho).imp ?_))
      intro i x hx hi
      have hp : c.parts[i]? = some c.parts[i] := Array.getElem?_eq_getElem hi
      rw [evaluate_eq_output c hp] at hx
      exact hm.output_length hw hk hv hp hx

theorem Made.advance_sized (hm : c.Made net dt) (hw : net.WellFormed) {values : Values α}
    (hv : c.Sized values) (i : Nat) : c.Sized (c.advance values i) := by
  unfold advance
  split
  · rename_i input integrand hp
    refine hv.set fun hi => ?_
    obtain ⟨⟨o, n⟩, hr, hpart⟩ := hm.record hp
    obtain ⟨h, g, rfl, rfl, rfl⟩ := part_eq_feedback hpart
    have hs := hw.sound i _ hr
    have hin := hm.read_length hv (hs.reads h (List.mem_singleton_self _)).2
    have hown := hv.length i hi
    rw [hm.sizes_getD hr] at hown ⊢
    rw [List.length_zipWith, hown]
    cases g with
    | none => simp only [Option.map_none, hin, hs.fits.1, Nat.min_self]
    | some g =>
      have hg := hm.read_length hv (hs.integrand g rfl)
      simp only [Option.map_some, List.length_zipWith, hin, hg, hs.fits.1, hs.fits.2 g rfl,
        Nat.min_self]
  · exact hv

theorem Made.advanceAll_sized (hm : c.Made net dt) (hw : net.WellFormed) {values : Values α}
    (hv : c.Sized values) : c.Sized (c.advanceAll values) := by
  unfold advanceAll
  induction List.range c.parts.size generalizing values with
  | nil => exact hv
  | cons i is ih => exact ih (hm.advance_sized hw hv i)

end Circuit

namespace Simulator

/-- A simulator of a network, at whatever point of a run. -/
structure Simulates (s : Simulator α) (net : Network α) (dt : α) : Prop where
  wellFormed : net.WellFormed
  made : s.circuit.Made net dt
  ready : s.Ready
  rowwise : s.kernel.Rowwise
  sized : s.circuit.Sized s.values

namespace Simulates

variable {net : Network α} {dt : α} {s s' : Simulator α}

/-- One step keeps all of it, whether it succeeds or not. -/
theorem step (h : s.Simulates net dt) : s.step.2.Simulates net dt where
  wellFormed := h.wellFormed
  made := by
    rw [step_circuit]
    exact h.made
  ready := step_ready h.ready
  rowwise := by
    rw [step_kernel]
    exact h.rowwise
  sized := by
    have hsweep := h.made.sweep_sized h.wellFormed h.rowwise (t := s.nextTime) s.schedule h.sized
    rw [step_eq]
    split
    · rename_i hs
      rw [hs] at hsweep
      exact hsweep
    · rename_i hs
      rw [hs] at hsweep
      exact h.made.advanceAll_sized h.wellFormed hsweep

theorem reaches (h : s.Simulates net dt) (hr : s.Reaches s') : s'.Simulates net dt := by
  induction hr with
  | start => exact h
  | step _ ih => exact ih.step

/-- A step that succeeds moves on from values of the right lengths that settle the present ones. -/
theorem settled (h : s.Simulates net dt) (hstep : s.step = (.ok (), s')) :
    ∃ v : Values α, s.circuit.Settles s.kernel s.nextTime s.values v ∧ s.circuit.Sized v ∧
      sweep s.circuit s.kernel s.nextTime s.schedule s.values = (.ok (), v) ∧ s' = s.next v := by
  obtain ⟨v, hv, rfl⟩ := (step_eq_ok_iff h.ready).1 hstep
  have hsweep := (sweep_eq_ok_iff h.ready.follows h.ready.size).2 hv
  have hsized := h.made.sweep_sized h.wellFormed h.rowwise (t := s.nextTime) s.schedule h.sized
  rw [hsweep] at hsized
  exact ⟨v, hv, hsized, hsweep, rfl⟩

end Simulates

end Simulator

theorem Backend.simulates {b : Backend} {net : Network α} {dt : α} {s : Simulator α}
    (hb : b.engine.build net dt = .ok s) (hw : net.WellFormed) : s.Simulates net dt := by
  obtain ⟨c, hm, rfl⟩ := build_eq_ok.1 hb
  refine ⟨hw, ?_, b.simulator_ready hm hw, b.simulator_rowwise c, ?_⟩
  · rwa [b.simulator_circuit]
  · rw [b.simulator_circuit, b.simulator_values]
    exact hm.initial_sized

end SignalGraph
