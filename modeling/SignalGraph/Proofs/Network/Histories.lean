import SignalGraph.Proofs.Arithmetic.Rational
import SignalGraph.Proofs.Effects
import SignalGraph.Proofs.Network.WellFormed

namespace SignalGraph

variable {α : Type}

/-- A call on a target. Its handles may name nothing there. -/
inductive Call (α : Type) where
  | create (r : Request α)
  | connect (feedback integrand : Handle)
  | probe (h : Handle)

/-- The call without its answer. -/
def Call.perform {σ : Type} (t : Target α σ) : Call α → Effect σ Unit
  | create r => (fun _ => ()) <$> t.create r
  | connect feedback integrand => t.connect feedback integrand
  | probe h => (fun _ => ()) <$> t.probe h

namespace Network

variable [Scalar α] {net net' : Network α}

/-- The network after calls, refused ones among them. -/
def after (net : Network α) (calls : List (Call α)) : Network α :=
  calls.foldl (fun net c => ((c.perform Target.network).run net).2) net

omit [Scalar α] in
theorem ofCall_run {β : Type} (call : Network α → Except NetworkError (β × Network α))
    (net : Network α) :
    (Effect.ofCall call).run net =
      match call net with
      | .ok (b, net') => (.ok b, net')
      | .error e => (.error e, net) := by
  change Effect.ofCall call net = _
  unfold Effect.ofCall
  rcases call net with _ | ⟨b, net'⟩ <;> rfl

omit [Scalar α] in
/-- The run of a pure call without its answer. -/
theorem ofCall_forget_run {β : Type} (call : Network α → Except NetworkError (β × Network α))
    (net : Network α) :
    ((fun _ => ()) <$> Effect.ofCall call).run net =
      match call net with
      | .ok (_, net') => (.ok (), net')
      | .error e => (.error e, net) := by
  rw [map_eq_pure_bind, Stateful.bind_run, ofCall_run]
  rcases call net with _ | ⟨b, net'⟩ <;> rfl

/-- What a call can do: it is granted as one of the three pure calls, or it is refused and changes
nothing. -/
theorem perform_cases (c : Call α) (net : Network α) :
    (∃ q h net', c = .create q ∧ net.create q = .ok (h, net') ∧
      (c.perform Target.network).run net = (.ok (), net')) ∨
    (∃ h f net', c = .connect h f ∧ net.connect h f = .ok net' ∧
      (c.perform Target.network).run net = (.ok (), net')) ∨
    (∃ h k net', c = .probe h ∧ net.probe h = .ok (k, net') ∧
      (c.perform Target.network).run net = (.ok (), net')) ∨
    ∃ e, (c.perform Target.network).run net = (.error e, net) := by
  cases c with
  | create q =>
    have hrun := ofCall_forget_run (·.create q) net
    rcases hc : net.create q with e | ⟨h, net'⟩
    · rw [hc] at hrun
      exact .inr (.inr (.inr ⟨e, hrun⟩))
    · rw [hc] at hrun
      exact .inl ⟨q, h, net', rfl, hc, hrun⟩
  | connect h f =>
    have hrun : ((Call.connect h f).perform Target.network).run net =
        match net.connect h f with
        | .ok net' => (.ok (), net')
        | .error e => (.error e, net) := by
      refine (ofCall_run (fun net => ((), ·) <$> net.connect h f) net).trans ?_
      cases net.connect h f <;> rfl
    rcases hc : net.connect h f with e | net'
    · rw [hc] at hrun
      exact .inr (.inr (.inr ⟨e, hrun⟩))
    · rw [hc] at hrun
      exact .inr (.inl ⟨h, f, net', rfl, hc, hrun⟩)
  | probe h =>
    have hrun := ofCall_forget_run (·.probe h) net
    rcases hc : net.probe h with e | ⟨k, net'⟩
    · rw [hc] at hrun
      exact .inr (.inr (.inr ⟨e, hrun⟩))
    · rw [hc] at hrun
      exact .inr (.inr (.inl ⟨h, k, net', rfl, hc, hrun⟩))

omit [Scalar α] in
theorem probe_grows {h : Handle} {k : Nat} (hc : net.probe h = .ok (k, net')) : net.Grows net' := by
  obtain ⟨-, -, rfl⟩ := probe_eq_ok.1 hc
  exact fun i r hr => ⟨r, hr, .same r⟩

/-- One call keeps a network reachable and its objects in place. -/
theorem perform_step (c : Call α) (hr : Reachable net) :
    Reachable ((c.perform Target.network).run net).2 ∧
      net.Grows ((c.perform Target.network).run net).2 := by
  obtain ⟨q, h, net', -, hc, hrun⟩ | ⟨h, f, net', -, hc, hrun⟩ | ⟨h, k, net', -, hc, hrun⟩ |
    ⟨e, hrun⟩ := perform_cases c net
  · rw [hrun]
    obtain ⟨⟨-, rfl⟩, -⟩ := create_eq_ok.1 hc
    exact ⟨hr.create hc, push_grows net _ _⟩
  · rw [hrun]
    exact ⟨hr.connect hc, connect_grows hc⟩
  · rw [hrun]
    exact ⟨hr.probe hc, probe_grows hc⟩
  · rw [hrun]
    exact ⟨hr, .refl net⟩

theorem after_step (calls : List (Call α)) (hr : Reachable net) :
    Reachable (net.after calls) ∧ net.Grows (net.after calls) := by
  induction calls generalizing net with
  | nil => exact ⟨hr, .refl net⟩
  | cons c calls ih =>
    obtain ⟨hr', hg⟩ := perform_step c hr
    obtain ⟨hr'', hg'⟩ := ih hr'
    exact ⟨hr'', hg.trans hg'⟩

/-- A call leaves the probes where they are. -/
theorem perform_probes (c : Call α) {p : Nat} {w : Handle} (hp : net.probes[p]? = some w) :
    ((c.perform Target.network).run net).2.probes[p]? = some w := by
  obtain ⟨q, h, net', -, hc, hrun⟩ | ⟨h, f, net', -, hc, hrun⟩ | ⟨h, k, net', -, hc, hrun⟩ |
    ⟨e, hrun⟩ := perform_cases c net
  · obtain ⟨⟨-, rfl⟩, -⟩ := create_eq_ok.1 hc
    rwa [hrun]
  · obtain ⟨-, -, input, -, rfl⟩ := connect_eq_ok.1 hc
    rwa [hrun]
  · obtain ⟨-, -, rfl⟩ := probe_eq_ok.1 hc
    have hne : p ≠ net.probes.size := Nat.ne_of_lt (Array.getElem?_eq_some_iff.1 hp).1
    rw [hrun, Array.getElem?_push, if_neg hne, hp]
  · rwa [hrun]

theorem after_probes (calls : List (Call α)) {p : Nat} {w : Handle} (hp : net.probes[p]? = some w) :
    (net.after calls).probes[p]? = some w := by
  induction calls generalizing net with
  | nil => exact hp
  | cons c calls ih => exact ih (perform_probes c hp)

/-- A network with more probes. -/
def withProbes (net : Network α) (ws : List Handle) : Network α :=
  { net with probes := net.probes ++ ws.toArray }

/-- Objects are probed one after the other, behind the probes that are there. -/
theorem probe_all {β : Type} (f : Handle → Nat → β) {ws : List Handle}
    (hws : ∀ w ∈ ws, net.holds w = true) :
    (ws.mapM fun w => f w <$> Target.network.probe w).run net =
      (.ok (ws.mapIdx fun k w => f w (net.probes.size + k)), net.withProbes ws) := by
  induction ws generalizing net with
  | nil => simp [withProbes]; rfl
  | cons w ws ih =>
    let probed : Network α := { net with probes := net.probes.push w }
    have hw : (f w <$> Target.network.probe w).run net = (.ok (f w net.probes.size), probed) :=
      Stateful.map_ok.2 ⟨_, Realize.ofCall_ok.2 (probe_eq_ok.2 ⟨hws w List.mem_cons_self, rfl, rfl⟩),
        rfl⟩
    have hrest := @ih probed fun v hv => hws v (List.mem_cons_of_mem _ hv)
    rw [List.mapM_cons, Stateful.bind_of_ok hw, Stateful.bind_of_ok hrest, List.mapIdx_cons]
    refine Stateful.pure_ok.2 ⟨?_, ?_⟩
    · simp [probed, Nat.add_assoc, Nat.add_comm 1]
    · simp [withProbes, probed]

theorem Reachable.probe_all {ws : List Handle} (hr : Reachable net)
    (hws : ∀ w ∈ ws, net.holds w = true) : Reachable (net.withProbes ws) := by
  induction ws generalizing net with
  | nil =>
    rwa [withProbes, Array.append_empty]
  | cons w ws ih =>
    have hprobe := probe_eq_ok.2 ⟨hws w List.mem_cons_self, rfl, rfl⟩
    have hrest := ih (hr.probe hprobe) fun v hv => hws v (List.mem_cons_of_mem _ hv)
    simpa [withProbes] using hrest

omit [Scalar α] in
theorem withProbes_getElem? (net : Network α) (ws : List Handle) (k : Nat) :
    (net.withProbes ws).probes[net.probes.size + k]? = ws[k]? := by
  rw [withProbes, Array.getElem?_append_right (Nat.le_add_right _ _), Nat.add_sub_cancel_left,
    List.getElem?_toArray]

omit [Scalar α] in
/-- A closed loop stays as it is. -/
theorem Grows.closed (hg : net.Grows net') {i n : Nat} {input f : Handle}
    (hi : net.objects[i]? = some ⟨.feedback input (some f), n⟩) :
    net'.objects[i]? = some ⟨.feedback input (some f), n⟩ := by
  obtain ⟨r, hr, hb⟩ := hg i _ hi
  cases hb
  exact hr

/-- Every history of calls, with any handles and parameters and any of them refused, leads to a
network whose objects have values, read objects before them under their sizes and fit those sizes;
whose closed loops are closed by objects of their own size, and stay so whatever is called later;
and whose probes are on its objects. A refused call leaves everything as it is. -/
theorem histories_wellFormed (label : Option String) (calls : List (Call α)) :
    let net : Network α := (Network.empty label).after calls
    (∀ (i : Nat) (r : ObjectRecord α), net.objects[i]? = some r →
      r.size ≠ 0 ∧ r.object.Fits r.size ∧
      (∀ h ∈ r.object.reads, h.id < i ∧ ∃ o, net.objects[h.id]? = some o ∧ o.size = h.size) ∧
      ∀ f, r.object.integrand? = some f →
        f.size = r.size ∧ (∃ o, net.objects[f.id]? = some o ∧ o.size = f.size) ∧
        ∀ more : List (Call α), (net.after more).objects[i]? = some r) ∧
    (∀ h ∈ net.probes, ∃ o, net.objects[h.id]? = some o ∧ o.size = h.size) ∧
    ∀ (c : Call α) (e : NetworkError),
      ((c.perform Target.network).run net).1 = .error e →
        ((c.perform Target.network).run net).2 = net := by
  intro net
  have hr : Reachable net := (after_step calls (.empty label)).1
  refine ⟨?_, fun h hh => holds_iff.1 (hr.wellFormed.probes h hh), ?_⟩
  · intro i r hi
    have hs := hr.wellFormed.sound i r hi
    refine ⟨hs.positive, hs.fits, fun h hh => ⟨(hs.reads h hh).1, holds_iff.1 (hs.reads h hh).2⟩, ?_⟩
    intro f hf
    obtain ⟨object, n⟩ := r
    cases object with
    | feedback input integrand =>
      cases hf
      exact ⟨hs.fits.2 f rfl, holds_iff.1 (hs.integrand f rfl),
        fun more => (after_step more hr).2.closed hi⟩
    | _ => cases hf
  · intro c e he
    obtain ⟨_, _, net', -, -, hrun⟩ | ⟨_, _, net', -, -, hrun⟩ | ⟨_, _, net', -, -, hrun⟩ |
      ⟨e', hrun⟩ := perform_cases c net
    · rw [hrun] at he
      cases he
    · rw [hrun] at he
      cases he
    · rw [hrun] at he
      cases he
    · rw [hrun]

/-- A feedback object is closed by itself. The calls with handles that name nothing, the second
closing and the slice out of range are refused. -/
def closedLoopCalls : List (Call ℚ) :=
  [.create (.source (.constant [1])), .create (.feedback ⟨7, 1⟩), .create (.feedback ⟨0, 1⟩),
    .connect ⟨1, 1⟩ ⟨0, 2⟩, .connect ⟨1, 1⟩ ⟨1, 1⟩, .connect ⟨1, 1⟩ ⟨0, 1⟩,
    .create (.slice ⟨1, 1⟩ [1]), .probe ⟨2, 1⟩, .probe ⟨1, 1⟩]

theorem closedLoopCalls_wellFormed :
    let net := (Network.empty none).after closedLoopCalls
    net.size = 2 ∧ net.probes = #[⟨1, 1⟩] ∧
      ∀ more : List (Call ℚ),
        (net.after more).objects[1]? = some ⟨.feedback ⟨0, 1⟩ (some ⟨1, 1⟩), 1⟩ :=
  ⟨rfl, rfl, (((histories_wellFormed none closedLoopCalls).1 1 _ rfl).2.2.2 ⟨1, 1⟩ rfl).2.2⟩

end Network

end SignalGraph
