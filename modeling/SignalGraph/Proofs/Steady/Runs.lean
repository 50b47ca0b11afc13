import SignalGraph.Proofs.Steady.Realized
import SignalGraph.Proofs.Steady.Recordings
import SignalGraph.Run.Basic

namespace SignalGraph

open Stateful

variable {α : Type} [Scalar α] {g : Graph α} {value : Nat → List α}

/-- Every array of nodes of a steady graph can be realized. -/
theorem Realize.makeFold_steady [Scalar.Exact α] (hs : g.Steady value) {f : Fold}
    (hf : ∀ n ∈ f.toList, n.index < g.size) {r : Realization α (Network α)}
    (hr : r.Steady value) :
    ∃ handles r', (makeFold Target.network g Defaults.standard f).run r = (.ok handles, r') ∧
      handles.shape = f.shape ∧ r'.Steady value ∧
        List.Forall₂ (fun n w => r'.built n = some w) f.toList handles.toList := by
  obtain ⟨ws, r', hrun, hr', -, hall⟩ := mapM_total (I := Realization.Steady value)
    (R := Realization.Keeps) (Q := fun n w r => r.built n = some w) (fun _ _ _ h => h)
    (fun h h' n w hn => h' n w (h n w hn)) (fun hn h => h _ _ hn)
    (fun n hn r hr => by
      obtain ⟨w, r', hp, hrest⟩ := place_steady hs (hf n hn) hr
      obtain ⟨out, hout⟩ := hr
      exact ⟨w, r', make_ok.2 ⟨hout.healthy, hp⟩, hrest⟩) hr
  obtain ⟨handles, hmake, hshape, hlist⟩ := array_mapM_ok hrun
  exact ⟨handles, r', hmake, hshape, hr', by rwa [hlist]⟩

namespace Run

/-- A steady graph is ready to be run: its nodes are realized on a steady network and probed. -/
theorem prepare_steady [Scalar.Exact α] (hs : g.Steady value) {f : Fold}
    (hf : ∀ n ∈ f.toList, n.index < g.size) :
    ∃ capture net, prepare g Defaults.standard f = .ok (capture, net) ∧ capture.shape = f.shape ∧
      net.WellFormed ∧ ∃ out, net.Steady out ∧
        List.Forall₂ (fun n tap => ∃ w, out w.id = value n.index ∧
          (net.probes[tap.probe]? = some w ∧ tap.size = w.size)) f.toList capture.toList := by
  obtain ⟨handles, r, hmake, hshape, ⟨out, hr⟩, hbuilt⟩ :=
    Realize.makeFold_steady hs hf (Realization.start_steady value (some "run"))
  have hholds : ∀ w ∈ handles.toList, r.target.holds w = true := by
    intro w hw
    obtain ⟨n, -, hn⟩ := forall₂_mem_right hbuilt hw
    exact (hr.known n w hn).1
  obtain ⟨capture, hattach, hcshape, htaps⟩ := Capture.attach_run hholds
  refine ⟨capture, _, ?_, hcshape.trans hshape, (hr.reachable.probe_all hholds).wellFormed, out,
    hr.steady, ?_⟩
  · simp only [prepare, hmake, bind_eq_ok]
    refine ⟨handles, rfl, ?_⟩
    rw [hattach]
    rfl
  · exact forall₂_comp (hbuilt.imp fun n w hn => (hr.known n w hn).2)
      (Capture.attach_probes htaps)

/-- A steady network that was probed runs for any number of steps, and the trace of every tap has
the value of its node in each of them. -/
theorem traces_steady [Scalar.Exact α] {net : Network α} (hw : net.WellFormed)
    {out : Nat → List α} (hs : net.Steady out) {ns : List Node} {taps : List Tap}
    (hall : List.Forall₂ (fun n tap => ∃ w, out w.id = value n.index ∧
      (net.probes[tap.probe]? = some w ∧ tap.size = w.size)) ns taps)
    {dt : α} (hpos : Scalar.less Scalar.zero dt = true) (hfin : Scalar.isFinite dt = true)
    (backend : Backend) (n : Nat) :
    ∃ s s' : Simulator α, backend.engine.build net dt = .ok s ∧ s.run n = (.ok (), s') ∧
      s'.recording.steps = n ∧ List.Forall₂ (fun node tap =>
        tap.size = (value node.index).length ∧ ∃ m : Matrix α,
          Capture.trace s'.recording tap = .ok m ∧ m.nrows = n ∧
            m.ncols = (value node.index).length ∧ ∀ k < n, m.row k = value node.index) ns taps := by
  obtain ⟨s, s', hb, hrun, hsteps, htraces⟩ := hs.traces hw hpos hfin backend n
  refine ⟨s, s', hb, hrun, hsteps, hall.imp ?_⟩
  rintro node tap ⟨w, hvalue, hp, hsize⟩
  obtain ⟨m, hm, hrows, hcols, hrow⟩ := htraces tap.probe w hp
  have hlength : w.size = (value node.index).length := by
    rw [← hvalue, hs.length (hw.probes w (Array.mem_of_getElem? hp))]
  refine ⟨hsize.trans hlength, m, ?_, hrows, hcols.trans hlength, ?_⟩
  · simp [Capture.trace, hm, hcols, hsize]
  · intro k hk
    rw [hrow k hk, hvalue]

end Run

theorem RunOptions.check_eq_ok {o : RunOptions α} {u : Unit} :
    o.check = .ok u ↔ (Scalar.less Scalar.zero o.dt = true ∧ Scalar.isFinite o.dt = true) ∧
      Scalar.atMost Scalar.zero o.duration = true ∧ Scalar.isFinite o.duration = true := by
  simp only [check]
  cases Scalar.less Scalar.zero o.dt <;> cases Scalar.isFinite o.dt <;>
    cases Scalar.atMost Scalar.zero o.duration <;> cases Scalar.isFinite o.duration <;> simp

/-- How many steps the options ask for. -/
def RunOptions.steps (o : RunOptions α) : Nat := Scalar.nearestNat (o.duration / o.dt)

/-- An array of nodes that puts out an array of numbers in every step of every run. The traces
always do; they make up one array unless it has too many places. -/
structure Graph.Reproduces (g : Graph α) (f : Fold) (a : NDArray α) : Prop where
  traces : ∃ capture net, Run.prepare g Defaults.standard f = .ok (capture, net) ∧
    ∀ (backend : Backend) (dt : α) (n : Nat), Scalar.less Scalar.zero dt = true →
      Scalar.isFinite dt = true → ∃ s s' : Simulator α, backend.engine.build net dt = .ok s ∧
        s.run n = (.ok (), s') ∧ ∃ ms, capture.extract s'.recording = .ok ms ∧
          ms.shape = a.shape ∧ ∀ i, Shape.Within i a.shape → ∃ m, ms.get? i = some m ∧
            m.nrows = n ∧ m.ncols = 1 ∧ ∀ k < n, m.row k = [a.entry i]
  run : ∀ o : RunOptions α, o.check = .ok () →
    Shape.addressable (a.shape ++ [o.steps]) = true →
      ∃ out, Run.run g Defaults.standard f o = .ok out ∧ o.timeAxis.Repeats o.steps a out
  overflow : ∀ o : RunOptions α, o.check = .ok () →
    Shape.addressable (a.shape ++ [o.steps]) = false →
      Run.run g Defaults.standard f o = .error (.graph (.shape (.invalid (.storage .overflow))))

theorem Engine.simulate_eq {e : Engine α} {net : Network α} {o : RunOptions α} {s s' : Simulator α}
    (ho : o.check = .ok ()) (hb : e.build net o.dt = .ok s) (hrun : s.run o.steps = (.ok (), s')) :
    e.simulate net o.duration o.dt = .ok s'.recording := by
  obtain ⟨-, hpos, hfin⟩ := RunOptions.check_eq_ok.1 ho
  simp only [simulate, guard_eq_ok, bind_eq_ok]
  refine ⟨by simp [hpos, hfin], s, hb, ?_⟩
  rw [RunOptions.steps] at hrun
  rw [hrun]
  rfl

/-- A recording that is made is that of a simulator after all its steps. -/
theorem Engine.of_simulate {e : Engine α} {net : Network α} {o : RunOptions α} {r : Recording α}
    (h : e.simulate net o.duration o.dt = .ok r) :
    ∃ s s', e.build net o.dt = .ok s ∧ s.run o.steps = (.ok (), s') ∧ s'.recording = r := by
  simp only [simulate, guard_eq_ok, bind_eq_ok] at h
  obtain ⟨-, s, hb, hrun⟩ := h
  rcases hs : s.run (Scalar.nearestNat (o.duration / o.dt)) with ⟨e | _, s'⟩
  · rw [hs] at hrun
    exact absurd hrun throw_ne_ok
  · rw [hs] at hrun
    exact ⟨s, s', hb, hs, pure_eq_ok.1 hrun⟩

/-- A run comes down to the traces of its recording. -/
theorem Run.run_eq {g : Graph α} {defaults : Defaults α} {f : Fold} {o : RunOptions α}
    {capture : Capture} {net : Network α} {s s' : Simulator α} (ho : o.check = .ok ())
    (hp : prepare g defaults f = .ok (capture, net))
    (hb : o.backend.engine.build net o.dt = .ok s) (hrun : s.run o.steps = (.ok (), s')) :
    run g defaults f o = capture.extractDense s'.recording o.timeAxis := by
  have hsimulate := Engine.simulate_eq ho hb hrun
  rw [run, runWith, ho, hp]
  change (o.backend.engine.simulate net o.duration o.dt).mapError RunError.network >>=
    (fun recording => capture.extractDense recording o.timeAxis) = _
  rw [hsimulate]
  rfl

namespace Graph.Steady

variable [Scalar.Exact α]

/-- Nodes that have single numbers put them out in every step of every run. -/
theorem reproduces (hs : g.Steady value) {f : Fold} {a : NDArray α} (hshape : f.shape = a.shape)
    (hx : List.Forall₂ (fun n x => g.Carries value n [x]) f.toList a.toList) :
    g.Reproduces f a := by
  have hf : ∀ n ∈ f.toList, n.index < g.size := by
    intro n hn
    obtain ⟨x, hc⟩ := forall₂_mem_left hx hn
    exact hc.1
  obtain ⟨capture, net, hprepare, hcshape, hwell, out, hout, htaps⟩ := Run.prepare_steady hs hf
  have hc : capture.shape = a.shape := hcshape.trans hshape
  have hruns : ∀ (backend : Backend) (dt : α) (n : Nat), Scalar.less Scalar.zero dt = true →
      Scalar.isFinite dt = true → ∃ s s' : Simulator α, backend.engine.build net dt = .ok s ∧
        s.run n = (.ok (), s') ∧ s'.recording.steps = n ∧ (∀ tap ∈ capture.toList, tap.size = 1) ∧
          List.Forall₂ (fun tap x => ∃ m : Matrix α, Capture.trace s'.recording tap = .ok m ∧
            (m.nrows = n ∧ m.ncols = 1 ∧ ∀ k < n, m.row k = [x])) capture.toList a.toList := by
    intro backend dt n hpos hfin
    obtain ⟨s, s', hb, hrun, hsteps, htraces⟩ :=
      Run.traces_steady hwell hout htaps hpos hfin backend n
    have hpairs := forall₂_comp htraces.flip hx
    refine ⟨s, s', hb, hrun, hsteps, ?_, hpairs.imp ?_⟩
    · intro tap htap
      obtain ⟨x, node, ⟨hsize, -⟩, hcar⟩ := forall₂_mem_left hpairs htap
      rw [hsize, hcar.2]
      rfl
    · rintro tap x ⟨node, ⟨-, m, hm, hrows, hcols, hrow⟩, hcar⟩
      rw [hcar.2] at hcols hrow
      exact ⟨m, hm, hrows, hcols, hrow⟩
  refine ⟨⟨capture, net, hprepare, ?_⟩, ?_, ?_⟩
  · intro backend dt n hpos hfin
    obtain ⟨s, s', hb, hrun, -, -, hall⟩ := hruns backend dt n hpos hfin
    obtain ⟨ms, hextract, hmshape, -, hms⟩ := Capture.extract_total hc hall
    refine ⟨s, s', hb, hrun, ms, hextract, hmshape, fun i hi => ?_⟩
    exact NDArray.forall₂_get? hmshape hms (NDArray.get?_eq_entry hi)
  · intro o ho haddr
    obtain ⟨⟨hpos, hfin⟩, -⟩ := RunOptions.check_eq_ok.1 ho
    obtain ⟨s, s', hb, hrun, hsteps, hsizes, hall⟩ := hruns o.backend o.dt o.steps hpos hfin
    rw [← hsteps] at haddr hall ⊢
    obtain ⟨out, hrep, hdense⟩ := Capture.extractDense_repeats o.timeAxis hc hsizes hall
    rw [Run.run_eq ho hprepare hb hrun, hdense, if_pos haddr]
    exact ⟨out, rfl, hrep⟩
  · intro o ho haddr
    obtain ⟨⟨hpos, hfin⟩, -⟩ := RunOptions.check_eq_ok.1 ho
    obtain ⟨s, s', hb, hrun, hsteps, hsizes, hall⟩ := hruns o.backend o.dt o.steps hpos hfin
    rw [← hsteps] at haddr hall
    obtain ⟨out, -, hdense⟩ := Capture.extractDense_repeats o.timeAxis hc hsizes hall
    rw [Run.run_eq ho hprepare hb hrun, hdense, haddr]
    rfl

end Graph.Steady

end SignalGraph
