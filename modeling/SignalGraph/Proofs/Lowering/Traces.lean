import SignalGraph.Proofs.Arithmetic.Rational
import SignalGraph.Proofs.Lowering.Refinement
import SignalGraph.Proofs.Simulation.Records

namespace SignalGraph

open Stateful

variable {α : Type} [Scalar α]

namespace Blueprint

variable {b : Blueprint α} {r : Realization α (Network α)} {dt : α}

/-- A simulator in the middle of a run, with the streams up to its step recorded. -/
structure Follows (b : Blueprint α) (r : Realization α (Network α)) (dt : α) (s : Simulator α) :
    Prop where
  simulates : s.Simulates r.target dt
  kernel : s.kernel = Kernel.sequential
  tracks : b.Tracks r dt s.steps s.values
  records : s.Records (b.Shows r dt)

theorem Follows.step [Scalar.Exact α] (hg : b.Good r) (ho : ∀ i, b.Owned r i) (hd : b.Direct)
    (ha : b.Apart) {s s' : Simulator α} (h : b.Follows r dt s) (hs : s.step = (.ok (), s')) :
    b.Follows r dt s' := by
  obtain ⟨v, hv, hvs, -, rfl⟩ := h.simulates.settled hs
  have hm := h.simulates.made
  have hnext := h.simulates.step
  rw [hs] at hnext
  rw [h.kernel, Simulator.nextTime, hm.dt_eq] at hv
  have hshows := h.tracks.shows hg hd hm hv hvs
  exact ⟨hnext, h.kernel, hshows.tracks hg ho ha hm hvs, h.records.next hvs hshows⟩

theorem Follows.run [Scalar.Exact α] (hg : b.Good r) (ho : ∀ i, b.Owned r i) (hd : b.Direct)
    (ha : b.Apart) {s s' : Simulator α} {n : Nat} (h : b.Follows r dt s)
    (hs : s.run n = (.ok (), s')) : b.Follows r dt s' ∧ s'.steps = s.steps + n := by
  induction n generalizing s with
  | zero =>
    cases hs
    exact ⟨h, rfl⟩
  | succ n ih =>
    rw [Simulator.run] at hs
    split at hs
    · rename_i u hu
      obtain ⟨hf, hn⟩ := ih (h.step hg ho hd ha hu) hs
      exact ⟨hf, by rw [hn, Simulator.step_steps hu, Nat.add_assoc, Nat.add_comm 1]⟩
    · cases hs

/-- A simulator that was just made. -/
theorem Follows.start [Scalar.Exact α] (hg : b.Good r) {backend : Backend} {s : Simulator α}
    (hb : backend.engine.build r.target dt = .ok s) : b.Follows r dt s := by
  refine ⟨Backend.simulates hb hg.reachable.wellFormed, Backend.build_kernel hb, ?_, .start hb⟩
  rw [Backend.build_steps hb]
  obtain ⟨c, hm, rfl⟩ := Backend.build_eq_ok.1 hb
  rw [backend.simulator_values]
  exact initial_tracks hg hm

/-- What a probe on the object of a node has recorded. -/
theorem Follows.trace (hg : b.Good r) {s : Simulator α} (h : b.Follows r dt s) {n : Node}
    {w : Handle} {p : Nat} (hb : r.built n = some w) (hp : r.target.probes[p]? = some w) :
    ∃ m : Matrix α, s.recording.traces[p]? = some m ∧ m.nrows = s.steps ∧ m.ncols = w.size ∧
      ∀ k < s.steps, m.row k = b.stream dt k n.index := by
  obtain ⟨-, m, -, -, hm, hrows, hcols, -, hrow⟩ :=
    h.records.trace h.simulates.made (hg.holds n w hb) hp
  refine ⟨m, hm, hrows, hcols, ?_⟩
  intro k hk
  obtain ⟨v, hshows, hv⟩ := hrow k hk
  rw [hv, hshows n w hb]

theorem good_start (b : Blueprint α) (label : Option String) :
    b.Good (.start (.empty label)) ∧ ∀ i, b.Owned (.start (.empty label)) i := by
  have hnone : ∀ n, (Realization.start (Network.empty label) :
      Realization α (Network α)).built n = none := fun n => rfl
  refine ⟨⟨.empty label, ?_, ?_, ?_⟩, ?_⟩
  · intro n h hb
    cases (hnone n).symm.trans hb
  · intro n h hb
    cases (hnone n).symm.trans hb
  · intro n h hb
    cases (hnone n).symm.trans hb
  · intro i o rec s f h _ _ hb
    cases (hnone s).symm.trans hb

/-- The realization of nodes keeps what is known right and gets to know them. -/
theorem makes_good {ns : List Node} {hs : List Handle} {r' : Realization α (Network α)}
    (hg : b.Good r) (ho : ∀ i, b.Owned r i)
    (hm : (ns.mapM (Realize.make Target.network b.graph b.defaults)).run r = (.ok hs, r')) :
    b.Good r' ∧ (∀ i, b.Owned r' i) ∧ List.Forall₂ (fun n h => r'.built n = some h) ns hs := by
  obtain ⟨⟨hg', ho'⟩, -, hall⟩ := mapM_ok (I := fun r => b.Good r ∧ ∀ i, b.Owned r i)
    (R := fun r r' => ∀ n h, r.built n = some h → r'.built n = some h)
    (Q := fun n h r => r.built n = some h) (fun _ _ _ hb => hb)
    (fun hr hr' n h hb => hr' n h (hr n h hb)) (fun hb hr => hr _ _ hb)
    (fun n _ h r r' hi hrun => by
      obtain ⟨-, hp⟩ := Realize.make_ok.1 hrun
      obtain ⟨hgood, hgrew, hb⟩ := place_good hi.1 (hi.2 n.index) hp
      exact ⟨⟨hgood, fun i => (hi.2 i).grew hgrew⟩, hgrew.built, hb⟩) ⟨hg, ho⟩ hm
  exact ⟨hg', ho', hall⟩

/-- Probes leave the objects as they are. -/
theorem probes_good {hs : List Handle} {ps : List Nat} {net : Network α} (hg : b.Good r)
    (hp : (hs.mapM (@Target.network α _).probe).run r.target = (.ok ps, net)) :
    b.Good { r with target := net } ∧
      List.Forall₂ (fun (h : Handle) (p : Nat) => net.probes[p]? = some h) hs ps := by
  obtain ⟨⟨hreach, hobjects⟩, -, hall⟩ := mapM_ok
    (I := fun net => net.Reachable ∧ net.objects = r.target.objects)
    (R := fun net net' => ∀ (p : Nat) (h : Handle), net.probes[p]? = some h →
      net'.probes[p]? = some h)
    (Q := fun h p net => net.probes[p]? = some h) (fun _ _ _ hb => hb)
    (fun hr hr' p h hb => hr' p h (hr p h hb)) (fun hb hr => hr _ _ hb)
    (fun h _ p net net' hi hrun => by
      have hcall := Realize.ofCall_ok.1 hrun
      obtain ⟨-, hk, hnet⟩ := Network.probe_eq_ok.1 hcall
      subst hk hnet
      refine ⟨⟨hi.1.probe hcall, hi.2⟩, ?_, by simp⟩
      intro p k hk
      have hlt := (Array.getElem?_eq_some_iff.1 hk).1
      rw [Array.getElem?_push, if_neg (Nat.ne_of_lt hlt), hk]) ⟨hg.reachable, rfl⟩ hp
  refine ⟨⟨hreach, ?_, hg.size, ?_⟩, hall⟩
  · intro n h hb
    have hh := hg.holds n h hb
    rw [Network.holds_iff] at hh ⊢
    rwa [hobjects]
  · intro n h hb
    exact (hg.image n h hb).mono (fun _ _ hb => hb) (by rw [hobjects])

end Blueprint

/-- The traces of nodes that were realized on a fresh network, probed and run for `n` steps are
their streams. -/
theorem realized_traces [Scalar.Exact α] {b : Blueprint α} (hd : b.Direct) (ha : b.Apart)
    {label : Option String} {roots : List Node} {handles : List Handle}
    {r : Realization α (Network α)}
    (hroots : (roots.mapM (Realize.make Target.network b.graph b.defaults)).run
      (.start (.empty label)) = (.ok handles, r))
    {probes : List Nat} {net : Network α}
    (hprobes : (handles.mapM (@Target.network α _).probe).run r.target = (.ok probes, net))
    {backend : Backend} {dt : α} {s s' : Simulator α}
    (hb : backend.engine.build net dt = .ok s) {n : Nat} (hrun : s.run n = (.ok (), s')) :
    List.Forall₂ (fun (root : Node) (p : Nat) => ∃ m : Matrix α,
      s'.recording.traces[p]? = some m ∧ m.nrows = n ∧
        ∀ k < n, m.row k = b.stream dt k root.index) roots probes := by
  obtain ⟨hg, ho⟩ := b.good_start label
  obtain ⟨hg, ho, hbuilt⟩ := Blueprint.makes_good hg ho hroots
  obtain ⟨hgood, hall⟩ := Blueprint.probes_good hg hprobes
  obtain ⟨hf, hsteps⟩ := (Blueprint.Follows.start hgood hb).run hgood ho hd ha hrun
  rw [Backend.build_steps hb, Nat.zero_add] at hsteps
  have hnodes := forall₂_comp hbuilt hall
  refine hnodes.imp fun root p hp => ?_
  obtain ⟨w, hw, hprobe⟩ := hp
  obtain ⟨m, hm, hrows, -, hrow⟩ := hf.trace hgood hw hprobe
  rw [hsteps] at hrows hrow
  exact ⟨m, hm, hrows, hrow⟩

open Realize

/-- A source, an integrator of it whose state decays, and a bundle of both. -/
def leakyRecords : Array (NodeRecord ℚ) :=
  #[⟨.element (.stimulus (.constant [1])), [], 1, .empty, .empty⟩,
    ⟨.state, [⟨0⟩], 1, .empty, .empty⟩,
    ⟨.element (.transform [.constantColumn 1 (-1)]), [⟨1⟩], 1, .empty, .empty⟩,
    ⟨.integrate ⟨1⟩ (some ⟨2⟩), [⟨0⟩], 1, .empty, .empty⟩,
    ⟨.element .bundle, [⟨0⟩, ⟨3⟩], 2, .empty, .empty⟩]

def leakyKind : Nat → BuiltinKind ℚ
  | 0 => .stimulus (.constant [1])
  | 2 => .transform [.constantColumn 1 (-1)]
  | _ => .bundle

def leaky : Blueprint ℚ where
  graph := ⟨leakyRecords, by decide⟩
  kind := leakyKind
  defaults := KeyMap.empty
  element i r e hr hk := by
    rcases i with _ | _ | _ | _ | _ | i <;> cases hr <;> cases hk <;> rfl
  bundle i r e hr hk hb := by
    rcases i with _ | _ | _ | _ | _ | i <;> cases hr <;> cases hk <;> cases hb
    rfl
  integrate i r s f hr hk := by
    rcases i with _ | _ | _ | _ | _ | i <;> cases hr <;> cases hk
    exact ⟨⟨⟨0⟩, rfl, rfl⟩, _, rfl, rfl, rfl⟩
  owner i j r r' s f f' hr hr' hk hk' := by
    rcases i with _ | _ | _ | _ | _ | i <;> cases hr <;> cases hk
    rcases j with _ | _ | _ | _ | _ | j <;> cases hr' <;> cases hk'
    rfl

theorem leaky_direct : leaky.Direct := by
  intro i r e function size config name type hr hk hkind
  rcases i with _ | _ | _ | _ | _ | i <;> cases hr <;> cases hk <;> cases hkind

theorem leaky_apart : leaky.Apart := by
  intro i r p s f n m hr hk hn hst hp
  rcases i with _ | _ | _ | _ | _ | i <;> cases hr <;> cases hk
  have hm : m = n := by
    cases hst with
    | refl => rfl
    | configure hrec hke hkind hin hrest =>
      rcases List.mem_cons.1 hn with rfl | hn
      · cases hkind
      · cases List.mem_singleton.1 hn
        cases hkind
  subst hm
  rcases List.mem_cons.1 hn with rfl | hn
  · cases hp
    exact ⟨nofun, nofun⟩
  · cases List.mem_singleton.1 hn
    cases hp
    exact ⟨nofun, nofun⟩

/-- The network of the leaky integrator. -/
def leakyNetwork : Network ℚ :=
  ⟨none, #[⟨.source (.constant [1]), 1⟩, ⟨.feedback ⟨0, 1⟩ (some ⟨2, 1⟩), 1⟩,
    ⟨.linear [⟨1, 1⟩] [.constantColumn 1 (-1)], 1⟩,
    ⟨.linear [⟨0, 1⟩, ⟨1, 1⟩] (BuiltinKind.bundleMatrices [⟨0, 1⟩, ⟨1, 1⟩]), 2⟩], #[]⟩

def leakyMemo : List (Node × Handle) :=
  [(⟨4⟩, ⟨3, 2⟩), (⟨3⟩, ⟨1, 1⟩), (⟨2⟩, ⟨2, 1⟩), (⟨1⟩, ⟨1, 1⟩), (⟨0⟩, ⟨0, 1⟩)]

/-- The realization while the loop is still open, after the first `k` objects. -/
def leakyOpen (k : Nat) (memo : List (Node × Handle)) : Realization ℚ (Network ℚ) :=
  ⟨⟨none, #[⟨.source (.constant [1]), 1⟩, ⟨.feedback ⟨0, 1⟩ none, 1⟩,
    ⟨.linear [⟨1, 1⟩] [.constantColumn 1 (-1)], 1⟩].take k, #[]⟩, memo, false, #[]⟩

/-- The realization once the loop is closed. -/
def leakyClosed : Realization ℚ (Network ℚ) :=
  ⟨⟨none, leakyNetwork.objects.take 3, #[]⟩, leakyMemo.drop 1, false, #[]⟩

theorem leaky_inputs {i : Nat} {h : Handle} {r r' : Realization ℚ (Network ℚ)}
    (hp : (place Target.network leaky.graph leaky.defaults i).run r = (.ok h, r')) :
    ([⟨i⟩].mapM fun n : Node => place Target.network leaky.graph leaky.defaults n.index).run r =
      (.ok [h], r') := by
  simp only [List.mapM_cons, List.mapM_nil, bind_ok, pure_ok]
  exact ⟨_, _, hp, _, _, ⟨rfl, rfl⟩, rfl, rfl⟩

theorem leaky_realized :
    ([⟨3⟩, ⟨4⟩].mapM (make Target.network leaky.graph leaky.defaults)).run (.start (.empty none)) =
      (.ok [⟨1, 1⟩, ⟨3, 2⟩], ⟨leakyNetwork, leakyMemo, false, #[]⟩) := by
  have hsource : (place Target.network leaky.graph leaky.defaults 0).run (.start (.empty none)) =
      (.ok ⟨0, 1⟩, leakyOpen 1 [(⟨0⟩, ⟨0, 1⟩)]) :=
    (place_ok.2 (.element rfl rfl rfl rfl rfl rfl rfl rfl)).trans rfl
  have hrate : (place Target.network leaky.graph leaky.defaults 2).run
      (leakyOpen 2 [(⟨1⟩, ⟨1, 1⟩), (⟨0⟩, ⟨0, 1⟩)]) =
      (.ok ⟨2, 1⟩, leakyOpen 3 [(⟨2⟩, ⟨2, 1⟩), (⟨1⟩, ⟨1, 1⟩), (⟨0⟩, ⟨0, 1⟩)]) :=
    (place_ok.2
      (.element rfl rfl rfl rfl rfl (leaky_inputs (place_ok.2 (.known rfl))) rfl rfl)).trans rfl
  have hloop : (place Target.network leaky.graph leaky.defaults 3).run (.start (.empty none)) =
      (.ok ⟨1, 1⟩, leakyClosed) :=
    (place_ok.2 (.closed rfl rfl rfl (leaky_inputs hsource) rfl hrate rfl)).trans rfl
  have hboth : ([⟨0⟩, ⟨3⟩].mapM fun n : Node =>
      place Target.network leaky.graph leaky.defaults n.index).run leakyClosed =
        (.ok [⟨0, 1⟩, ⟨1, 1⟩], leakyClosed) := by
    simp only [List.mapM_cons, List.mapM_nil, bind_ok, pure_ok]
    exact ⟨_, _, place_ok.2 (.known rfl), _, _,
      ⟨_, _, place_ok.2 (.known rfl), _, _, ⟨rfl, rfl⟩, rfl, rfl⟩, rfl, rfl⟩
  have hbundle : (place Target.network leaky.graph leaky.defaults 4).run leakyClosed =
      (.ok ⟨3, 2⟩, ⟨leakyNetwork, leakyMemo, false, #[]⟩) :=
    (place_ok.2 (.element rfl rfl rfl rfl rfl hboth rfl rfl)).trans rfl
  simp only [List.mapM_cons, List.mapM_nil, bind_ok, pure_ok, make_ok]
  exact ⟨_, _, ⟨rfl, hloop⟩, _, _, ⟨_, _, ⟨rfl, hbundle⟩, _, _, ⟨rfl, rfl⟩, rfl, rfl⟩, rfl, rfl⟩

/-- The network with probes on the integrator and on the bundle, ready for stepping. -/
def leakyStart : Simulator ℚ :=
  Backend.cpu.simulator
    ⟨2, #[.source (.constant [1]), .feedback 0 (some 2), .linear [1] [.constantColumn 1 (-1)],
      .linear [0, 1] (BuiltinKind.bundleMatrices [⟨0, 1⟩, ⟨1, 1⟩])],
      leakyNetwork.objects.map (·.size), [1, 3]⟩

theorem leaky_traces :
    leaky.Direct ∧ leaky.Apart ∧ ∃ (handles : List Handle) (r : Realization ℚ (Network ℚ))
      (probes : List Nat) (net : Network ℚ) (s s' : Simulator ℚ),
      ([⟨3⟩, ⟨4⟩].mapM (Realize.make Target.network leaky.graph leaky.defaults)).run
        (.start (.empty none)) = (.ok handles, r) ∧
      (handles.mapM (@Target.network ℚ _).probe).run r.target = (.ok probes, net) ∧
      Backend.cpu.engine.build net 2 = .ok s ∧ s.run 3 = (.ok (), s') ∧
      s'.recorder.samples = [#[0, 2, 0], #[1, 0, 1, 2, 1, 0]] ∧
      List.Forall₂ (fun (root : Node) (p : Nat) => ∃ m : Matrix ℚ,
        s'.recording.traces[p]? = some m ∧ m.nrows = 3 ∧
          ∀ k < 3, m.row k = leaky.stream 2 k root.index) [⟨3⟩, ⟨4⟩] probes := by
  have hb : Backend.cpu.engine.build { leakyNetwork with probes := #[⟨1, 1⟩, ⟨3, 2⟩] } 2 =
    .ok leakyStart := rfl
  have hrun : leakyStart.run 3 = (.ok (), (leakyStart.run 3).2) := rfl
  refine ⟨leaky_direct, leaky_apart, _, _, _, _, leakyStart, _, leaky_realized, rfl, hb, hrun,
    by decide +kernel, ?_⟩
  exact realized_traces leaky_direct leaky_apart leaky_realized rfl hb hrun

end SignalGraph
