import SignalGraph.Proofs.Realize.Sessions
import SignalGraph.Proofs.Simulation.Safety
import SignalGraph.Proofs.Steady.Runs

namespace SignalGraph

variable {α : Type} [Scalar α]

/-- The size that the handles of an array have in common, zero if there are none. -/
structure NDArray.CommonSize (handles : NDArray Handle) (d : Nat) : Prop where
  each : ∀ w ∈ handles.toList, w.size = d
  none : handles.toList = [] → d = 0

theorem NDArray.CommonSize.head {handles : NDArray Handle} {d : Nat} (h : handles.CommonSize d) :
    (handles.toList.map (·.size)).headD 0 = d := by
  cases hlist : handles.toList with
  | nil => exact (h.none hlist).symm
  | cons w ws => exact h.each w (by simp [hlist])

namespace Simulator

/-- A matrix of what was recorded of an object between two simulators, a row per step. -/
structure TraceOf (s₀ s : Simulator α) (w : Handle) (m : Matrix α) : Prop where
  nrows : m.nrows = s.steps
  ncols : m.ncols = w.size
  row : ∀ k < s.steps, ∃ v, s₀.Recorded s k v ∧ m.row k = v.of w.id

/-- Whatever steps lead to, a probe has the trace of its object. -/
theorem Reaches.trace {b : Backend} {net : Network α} {dt : α} {s₀ s : Simulator α}
    (h : s₀.Reaches s) (hb : b.engine.build net dt = .ok s₀) (hw : net.WellFormed) {p : Nat}
    {w : Handle} (hp : net.probes[p]? = some w) :
    ∃ m, s.recording.traces[p]? = some m ∧ s₀.TraceOf s w m := by
  have hm := ((Backend.simulates hb hw).reaches h).made
  obtain ⟨-, m, -, -, htrace, hrows, hcols, -, hrow⟩ :=
    (h.records hb hw).trace hm (hw.probes w (Array.mem_of_getElem? hp)) hp
  exact ⟨m, htrace, hrows, hcols, hrow⟩

theorem Reaches.steps {b : Backend} {net : Network α} {dt : α} {s₀ s : Simulator α}
    (h : s₀.Reaches s) (hb : b.engine.build net dt = .ok s₀) (hw : net.WellFormed) :
    s.recording.steps = s.steps := by
  simpa [Recording.steps, recording, Recorder.data] using (h.records hb hw).times

end Simulator

namespace Capture

variable {c : Capture} {r : Recording α} {handles : NDArray Handle} {traces : NDArray (Matrix α)}

/-- Traces of objects of one size are put into one array, traces of other objects are not. -/
theorem extractDense_handles (axis : TimeAxis) {N : Nat} (hN : r.steps = N)
    (hshape : traces.shape = c.shape) (hc : c.shape = handles.shape)
    (hsizes : c.toList.map (·.size) = handles.toList.map (·.size))
    (ht : List.Forall₂ (fun tap m => trace r tap = .ok m) c.toList traces.toList)
    (hrows : ∀ m ∈ traces.toList, m.nrows = N) :
    (∀ d, handles.CommonSize d → ∃ out, axis.Stacks N d traces out ∧ c.extractDense r axis =
      if Shape.addressable (handles.shape ++ [N, d]) then .ok out
      else .error (.graph (.shape (.invalid (.storage .overflow))))) ∧
    ((¬∃ d, handles.CommonSize d) → ∃ w ∈ handles.toList, ∃ v ∈ handles.toList, w.size ≠ v.size ∧
      c.extractDense r axis = .error (.graph (.invalid (.traceSizes w.size v.size)))) := by
  subst hN
  have hiff : ∀ d, (∀ tap ∈ c.toList, tap.size = d) ↔ ∀ w ∈ handles.toList, w.size = d := by
    intro d
    have hall := congrArg (fun sizes => ∀ n ∈ sizes, n = d) hsizes
    simpa using hall
  constructor
  · intro d hd
    exact hc ▸ extractDense_stacks axis hshape ht hrows ((hiff d).2 hd.each) (hsizes ▸ hd.head)
  · intro hnone
    have hother : ∃ tap ∈ c.toList, tap.size ≠ (c.toList.map (·.size)).headD 0 := by
      by_contra hall
      simp only [ne_eq, not_exists, not_and, not_not] at hall
      refine hnone ⟨_, (hiff _).1 hall, fun hempty => ?_⟩
      rw [hsizes, hempty]
      rfl
    obtain ⟨other, hmem, hne, hdense⟩ := extractDense_sizes (r := r) axis hother
    rw [hsizes] at hmem hne hdense
    obtain ⟨v, hv, rfl⟩ := List.mem_map.1 hmem
    cases hlist : handles.toList with
    | nil =>
      rw [hlist] at hv
      cases hv
    | cons w ws =>
      rw [hlist] at hv hne hdense
      exact ⟨w, List.mem_cons_self, v, hv, hne.symm, hdense⟩

/-- What is read through a capture, made of handles with `first` probes before them, of the recording
that steps from one simulator have led another one to. -/
structure LaysOut (c : Capture) (handles : NDArray Handle) (first : Nat) (s₀ s : Simulator α)
    (traces : NDArray (Matrix α)) : Prop where
  extract : c.extract s.recording = .ok traces
  shape : traces.shape = handles.shape
  entry : ∀ i w, handles.get? i = some w → ∃ m, traces.get? i = some m ∧
    s.recording.traces[first + Shape.offset handles.shape i]? = some m ∧ s₀.TraceOf s w m
  stacked : ∀ axis d, handles.CommonSize d → ∃ out, axis.Stacks s.steps d traces out ∧
    c.extractDense s.recording axis =
      if Shape.addressable (handles.shape ++ [s.steps, d]) then .ok out
      else .error (.graph (.shape (.invalid (.storage .overflow))))
  refused : (¬∃ d, handles.CommonSize d) → ∀ axis, ∃ w ∈ handles.toList, ∃ v ∈ handles.toList,
    w.size ≠ v.size ∧ c.extractDense s.recording axis =
      .error (.graph (.invalid (.traceSizes w.size v.size)))

theorem laid_out {net : Network α} (hr : net.Reachable)
    (hh : ∀ w ∈ handles.toList, net.holds w = true) :
    ∃ capture probed, (attach Target.network handles).run net = (.ok capture, probed) ∧
      capture.shape = handles.shape ∧
      ∀ (later : List (Call α)) (b : Backend) (dt : α) (s₀ : Simulator α)
        (commands : List Simulator.Command),
        b.engine.build (probed.after later) dt = .ok s₀ →
          ∃ traces, capture.LaysOut handles net.probes.size s₀ (s₀.after commands) traces := by
  obtain ⟨capture, hattach, hshape, htaps⟩ := attach_run hh
  have hon := attach_probes htaps
  refine ⟨capture, _, hattach, hshape, fun later b dt s₀ commands hb => ?_⟩
  have hreach := Simulator.after_reaches (.start (s := s₀)) commands
  generalize s₀.after commands = s at hreach
  have hw := (Network.after_step later (hr.probe_all hh)).1.wellFormed
  have hall : List.Forall₂ (fun tap w => ∃ m, trace s.recording tap = .ok m ∧ s₀.TraceOf s w m)
      capture.toList handles.toList := by
    refine (hon.imp fun w tap ⟨hp, hsize⟩ => ?_).flip
    obtain ⟨m, hm, htrace⟩ := hreach.trace hb hw (Network.after_probes later hp)
    exact ⟨m, trace_eq_ok.2 ⟨hm, htrace.ncols.trans hsize.symm⟩, htrace⟩
  obtain ⟨ms, htraces, hof⟩ := forall₂_between hall
  obtain ⟨traces, hextract, htshape, rfl⟩ := NDArray.mapM_ok htraces
  have hsizes : capture.toList.map (·.size) = handles.toList.map (·.size) :=
    forall₂_map_eq (hon.imp fun w tap h => h.2).flip
  have hrows : ∀ m ∈ traces.toList, m.nrows = s.steps := by
    intro m hm
    obtain ⟨w, htrace⟩ := forall₂_mem_left hof hm
    exact htrace.nrows
  have hdense := fun axis => extractDense_handles axis (hreach.steps hb hw) htshape hshape hsizes
    htraces hrows
  refine ⟨traces, hextract, htshape.trans hshape, fun i w hi => ?_, fun axis => (hdense axis).1,
    fun hnone axis => (hdense axis).2 hnone⟩
  · obtain ⟨m, hm, htrace⟩ := NDArray.forall₂_get? (htshape.trans hshape) hof hi
    refine ⟨m, hm, ?_, htrace⟩
    have htap : capture.toList[Shape.offset handles.shape i]? =
        some ⟨net.probes.size + Shape.offset handles.shape i, w.size⟩ := by
      rw [htaps, List.getElem?_mapIdx, (NDArray.get?_eq_some.1 hi).2]
      rfl
    have hplace := (NDArray.get?_eq_some.1 hm).2
    rw [htshape, hshape] at hplace
    exact (trace_eq_ok.1 (forall₂_getElem? htraces htap hplace)).1

end Capture

/-- An array with the entries of a matrix is the matrix. -/
theorem Matrix.ofNDArray?_eq_some {a : NDArray α} {m : Matrix α} (hs : a.shape = [m.nrows, m.ncols])
    (h : ∀ k < m.nrows, ∀ j < m.ncols, a.get? [k, j] = some (m.entry k j)) :
    ofNDArray? a = some m := by
  obtain ⟨s, data⟩ := a
  obtain ⟨nrows, ncols, values⟩ := m
  cases hs
  have hvalues : (⟨data.toArray, by simp [Shape.size]⟩ : Vector α (nrows * ncols)) = values := by
    refine Vector.ext fun p hp => ?_
    have hp' : p < Shape.size [nrows, ncols] := by simpa [Shape.size] using hp
    obtain ⟨k, j, hkj⟩ : ∃ k j, Shape.unravel [nrows, ncols] p = [k, j] := ⟨_, _, rfl⟩
    obtain ⟨hk, hj, -⟩ := hkj ▸ Shape.within_unravel hp'
    have ho : Shape.offset [nrows, ncols] [k, j] = p := hkj ▸ Shape.offset_unravel hp'
    have hplace : k * ncols + j = p := by simpa [Shape.offset, Shape.size] using ho
    have hread := (NDArray.get?_eq_some.1 (h k hk j hj)).2
    rw [ho, entry, if_pos hj, hplace, Vector.getElem?_eq_getElem hp] at hread
    simpa [NDArray.toList, Vector.getElem?_eq_getElem hp'] using hread
  exact congrArg (fun values => some (Matrix.mk nrows ncols values)) hvalues

namespace Run

open Stateful

variable {g : Graph α} {defaults : Defaults α}

/-- What a network holds that is ready to be run. -/
theorem of_prepare {f : Fold} {capture : Capture} {net : Network α}
    (h : prepare g defaults f = .ok (capture, net)) :
    ∃ handles q, (Realize.makeFold Target.network g defaults f).run (.start (.empty (some "run"))) =
        (.ok handles, q) ∧
      (Capture.attach Target.network handles).run q.target = (.ok capture, net) := by
  rcases hmake : (Realize.makeFold Target.network g defaults f).run
    (.start (.empty (some "run"))) with ⟨made, q⟩
  simp only [prepare, hmake, bind_eq_ok] at h
  obtain ⟨handles, hmade, h⟩ := h
  rcases hattach : (Capture.attach Target.network handles).run q.target with ⟨attached, net'⟩
  simp only [hattach, bind_eq_ok, pure_eq_ok] at h
  obtain ⟨c, hattached, he⟩ := h
  cases he
  cases made with
  | error e => cases hmade
  | ok ks =>
    cases hmade
    cases attached with
    | error e => cases hattached
    | ok c' =>
      cases hattached
      exact ⟨handles, q, rfl, hattach⟩

/-- A single node has a single handle. -/
theorem makeFold_single {n : Node} {handles : NDArray Handle} {q q' : Realization α (Network α)}
    (h : (Realize.makeFold Target.network g defaults (.single n)).run q = (.ok handles, q')) :
    ∃ w, handles.shape = [] ∧ handles.toList = [w] ∧
      (Realize.make Target.network g defaults n).run q = (.ok w, q') := by
  obtain ⟨hshape, hlist⟩ := of_array_mapM h
  have hsingle : (NDArray.single n).toList = [n] := rfl
  rw [hsingle] at hlist
  simp only [List.mapM_cons, List.mapM_nil, bind_ok, pure_ok] at hlist
  obtain ⟨w, _, hw, _, _, ⟨rfl, rfl⟩, hone, rfl⟩ := hlist
  exact ⟨w, hshape, hone.symm, hw⟩

/-- The run of a single node is the trace of its object. -/
theorem runNode_trace {n : Node} {o : RunOptions α} {capture : Capture} {net : Network α}
    {r : Recording α} (ho : o.check = .ok ())
    (hp : prepare g defaults (.single n) = .ok (capture, net))
    (hr : o.backend.engine.simulate net o.duration o.dt = .ok r) :
    ∃ (w : Handle) (q : Realization α (Network α)) (s₀ s : Simulator α) (m : Matrix α),
      (Realize.make Target.network g defaults n).run (.start (.empty (some "run"))) = (.ok w, q) ∧
      o.backend.engine.build net o.dt = .ok s₀ ∧ s₀.run o.steps = (.ok (), s) ∧
      s.steps = o.steps ∧ s₀.TraceOf s w m ∧
      ∀ axis, runNode g defaults n { o with timeAxis := axis } =
        if Shape.addressable [o.steps, w.size] then .ok m
        else .error (.graph (.shape (.invalid (.storage .overflow)))) := by
  obtain ⟨handles, q, hmake, hattach⟩ := of_prepare hp
  obtain ⟨w, hshape, hlist, hw⟩ := makeFold_single hmake
  have hreach : q.target.Reachable := Realize.make_reachable (.empty _) hw
  obtain ⟨_, _, hattach', -, hall⟩ := Capture.laid_out hreach (Capture.attach_holds hattach)
  cases hattach.symm.trans hattach'
  obtain ⟨s₀, s, hb, hrun, rfl⟩ := Engine.of_simulate hr
  have hafter : s₀.after [.run o.steps] = s := by
    change (s₀.run o.steps).2 = s
    rw [hrun]
  obtain ⟨traces, hread⟩ := hall [] o.backend o.dt s₀ [.run o.steps] hb
  rw [hafter] at hread
  have hi : handles.get? [] = some w := by
    rw [NDArray.get?_eq_some, hshape, hlist]
    exact ⟨trivial, rfl⟩
  obtain ⟨m, hm, -, htrace⟩ := hread.entry [] w hi
  have hsteps : s.steps = o.steps := by
    rw [Simulator.run_steps hrun, Backend.build_steps hb, Nat.zero_add]
  refine ⟨w, q, s₀, s, m, hw, hb, hrun, hsteps, htrace, fun axis => ?_⟩
  obtain ⟨out, hstacks, hout⟩ := hread.stacked axis w.size ⟨by simp [hlist], by simp [hlist]⟩
  have hmatrix : Matrix.ofNDArray? out = some m := by
    refine Matrix.ofNDArray?_eq_some ?_ fun k hk j hj => ?_
    · rw [hstacks.shape, hread.shape, hshape, htrace.nrows, htrace.ncols]
      cases axis <;> rfl
    · have hentry := hstacks.entry [] m hm k (htrace.nrows ▸ hk) j (htrace.ncols ▸ hj)
      cases axis <;> exact hentry
  have hfold : run g defaults (.single n) { o with timeAxis := axis } =
      capture.extractDense s.recording axis :=
    run_eq (o := { o with timeAxis := axis }) ho hp hb hrun
  rw [runNode, hfold, hout, hshape, List.nil_append, hsteps]
  split
  · simp [hmatrix, bind, Except.bind, pure, Except.pure]
  · rfl

end Run

/-- Handles of any shape on a network that calls lead to, which may have other probes. Their capture
has that shape and lays out whatever is recorded later: calls on the network may come before the
simulator is made, and commands, failed ones among them, may follow. A single node that is realized and
simulated is run to the trace of its object under both axes. -/
theorem recordings_laid_out :
    (∀ (net : Network α) (handles : NDArray Handle), net.Reachable →
      (∀ w ∈ handles.toList, net.holds w = true) →
      ∃ capture probed, (Capture.attach Target.network handles).run net = (.ok capture, probed) ∧
        capture.shape = handles.shape ∧
        ∀ (later : List (Call α)) (b : Backend) (dt : α) (s₀ : Simulator α)
          (commands : List Simulator.Command),
          b.engine.build (probed.after later) dt = .ok s₀ →
            ∃ traces, capture.LaysOut handles net.probes.size s₀ (s₀.after commands) traces) ∧
    ∀ (g : Graph α) (defaults : Defaults α) (n : Node) (o : RunOptions α) (capture : Capture)
      (net : Network α) (r : Recording α), o.check = .ok () →
      Run.prepare g defaults (.single n) = .ok (capture, net) →
      o.backend.engine.simulate net o.duration o.dt = .ok r →
      ∃ (w : Handle) (q : Realization α (Network α)) (s₀ s : Simulator α) (m : Matrix α),
        (Realize.make Target.network g defaults n).run (.start (.empty (some "run"))) = (.ok w, q) ∧
        o.backend.engine.build net o.dt = .ok s₀ ∧ s₀.run o.steps = (.ok (), s) ∧
        s.steps = o.steps ∧ s₀.TraceOf s w m ∧
        ∀ axis, Run.runNode g defaults n { o with timeAxis := axis } =
          if Shape.addressable [o.steps, w.size] then .ok m
          else .error (.graph (.shape (.invalid (.storage .overflow)))) := by
  exact ⟨fun net handles hr hh => Capture.laid_out hr hh, fun g defaults n o capture net r ho hp hr =>
    Run.runNode_trace ho hp hr⟩

/-- A source of two numbers that has a probe, and a feedback object of it. -/
def probedPair : Network ℚ :=
  ⟨none, #[⟨.source (.constant [1, 2]), 2⟩, ⟨.feedback ⟨0, 2⟩ none, 2⟩], #[⟨0, 2⟩]⟩

theorem probedPair_reachable : probedPair.Reachable := by
  have h₁ := Network.Reachable.create (r := .source (.constant [(1 : ℚ), 2])) (.empty none) rfl
  have h₂ := h₁.create (r := .feedback ⟨0, 2⟩) rfl
  exact h₂.probe (h := ⟨0, 2⟩) rfl

/-- The feedback object before the source, in a column. -/
def pairHandles : NDArray Handle := ⟨[2, 1], #v[⟨1, 2⟩, ⟨0, 2⟩]⟩

/-- An integrator of two numbers. -/
def pairGraph : Graph ℚ :=
  (do Build.integrate (← Build.stimulus (.constant [1, 2])) none : Build ℚ Node).graph

theorem probedPair_laid_out :
    probedPair.Reachable ∧ (∀ w ∈ pairHandles.toList, probedPair.holds w = true) ∧
      (∃ capture probed s₀ traces out,
        (Capture.attach Target.network pairHandles).run probedPair = (.ok capture, probed) ∧
        Backend.batched.engine.build (probed.after [.probe ⟨0, 2⟩]) 1 = .ok s₀ ∧
        capture.LaysOut pairHandles 1 s₀ (s₀.after [.run 3]) traces ∧
        TimeAxis.leading.Stacks 3 2 traces out ∧
        capture.extractDense (s₀.after [.run 3]).recording .leading = .ok out) ∧
      ∃ m : Matrix ℚ, m.nrows = 2 ∧ m.ncols = 2 ∧ ∀ axis,
        Run.runNode pairGraph Defaults.standard ⟨2⟩ ⟨2, 1, .cpu, axis⟩ = .ok m := by
  have hr := probedPair_reachable
  have hh : ∀ w ∈ pairHandles.toList, probedPair.holds w = true := by decide +kernel
  obtain ⟨hlaid, hruns⟩ := recordings_laid_out (α := ℚ)
  refine ⟨hr, hh, ?_, ?_⟩
  · obtain ⟨capture, probed, hattach, -, hall⟩ := hlaid probedPair pairHandles hr hh
    obtain ⟨_, hattach', -⟩ := Capture.attach_run hh
    cases hattach'.symm.trans hattach
    obtain ⟨traces, htraces⟩ := hall [.probe ⟨0, 2⟩] .batched 1 _ [.run 3] rfl
    obtain ⟨out, hstacks, hdense⟩ := htraces.stacked .leading 2 ⟨by decide, by decide⟩
    exact ⟨capture, _, _, traces, out, hattach, rfl, htraces, hstacks, hdense⟩
  · let o : RunOptions ℚ := ⟨2, 1, .cpu, .trailing⟩
    have ho : o.check = .ok () :=
      RunOptions.check_eq_ok.2 ⟨⟨by decide +kernel, rfl⟩, by decide +kernel, rfl⟩
    have hsteps : o.steps = 2 := by decide +kernel
    have hmade : ((Realize.make Target.network pairGraph Defaults.standard ⟨2⟩).run
        (.start (.empty (some "run")))).1.toOption = some ⟨1, 2⟩ := by decide +kernel
    have hsim : ((Run.prepare pairGraph Defaults.standard (.single ⟨2⟩)).toOption.map fun p =>
        (o.backend.engine.simulate p.2 o.duration o.dt).isOk) = some true := by decide +kernel
    cases hp : Run.prepare pairGraph Defaults.standard (.single ⟨2⟩) with
    | error e =>
      rw [hp] at hsim
      cases hsim
    | ok p =>
      rw [hp] at hsim
      cases hr : o.backend.engine.simulate p.2 o.duration o.dt with
      | error e =>
        simp [Except.toOption, Except.isOk, Except.toBool, hr] at hsim
      | ok r =>
        obtain ⟨w, q, s₀, s, m, hm, -, -, hs, htrace, hrun⟩ := hruns _ _ _ o _ _ _ ho hp hr
        rw [hm] at hmade
        cases hmade
        refine ⟨m, htrace.nrows.trans (hs.trans hsteps), htrace.ncols, fun axis => ?_⟩
        exact (hrun axis).trans (if_pos (hsteps ▸ by decide +kernel))

/-- A capture of an array without handles but with a huge axis is not made into one array, although
all its handles have one size. -/
theorem hollow_capture_refused :
    ∃ (handles : NDArray Handle) (capture : Capture) (net : Network ℚ) (s₀ s : Simulator ℚ),
      (Capture.attach Target.network handles).run (.empty none) = (.ok capture, net) ∧
      handles.CommonSize 0 ∧ Backend.cpu.engine.build net 1 = .ok s₀ ∧ s₀.run 2 = (.ok (), s) ∧
      ∀ axis, capture.extractDense s.recording axis =
        .error (.graph (.shape (.invalid (.storage .overflow)))) := by
  let handles : NDArray Handle := ⟨[0, 4611686018427387904], ⟨#[], rfl⟩⟩
  have hh : ∀ w ∈ handles.toList, (Network.empty none : Network ℚ).holds w = true :=
    fun w hw => nomatch hw
  have hd : handles.CommonSize 0 := ⟨fun w hw => (nomatch hw), fun _ => rfl⟩
  obtain ⟨capture, probed, hattach, -, hall⟩ := Capture.laid_out (.empty none) hh
  obtain ⟨_, hattach', -⟩ := Capture.attach_run hh
  cases hattach'.symm.trans hattach
  obtain ⟨traces, htraces⟩ := hall [] .cpu 1 _ [.run 2] rfl
  refine ⟨handles, capture, _, _, _, hattach, hd, rfl, rfl, fun axis => ?_⟩
  obtain ⟨out, -, hdense⟩ := htraces.stacked axis 0 hd
  exact hdense.trans (if_neg (by decide +kernel))

end SignalGraph
