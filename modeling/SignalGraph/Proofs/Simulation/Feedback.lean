import SignalGraph.Proofs.Arithmetic.Rational
import SignalGraph.Proofs.Simulation.Sizes

namespace SignalGraph

variable {α : Type} [Scalar α]

/-- The rate of a feedback object, from the values at its input and its integrand. -/
def Circuit.rate (read : Nat → List α) (input : Nat) : Option Nat → List α
  | none => read input
  | some f => List.zipWith (· + ·) (read input) (read f)

/-- A state moved along a rate for a time `dt`. -/
def Circuit.moved (dt : α) (state rate : List α) : List α :=
  List.zipWith (fun x r => x + dt * r) state rate

namespace Circuit

variable (c : Circuit α)

theorem advance_feedback {values : Values α} {i input : Nat} {g : Option Nat}
    (hp : c.parts[i]? = some (.feedback input g)) :
    c.advance values i =
      values.setIfInBounds i (moved c.dt (values.of i) (rate values.of input g)) := by
  unfold advance
  rw [hp]
  cases g <;> rfl

theorem advance_of_ne (values : Values α) {i j : Nat} (h : j ≠ i) :
    Values.of (c.advance values i) j = values.of j := by
  unfold advance
  split
  · simp only [Values.of, Array.getD_eq_getD_getElem?, Array.getElem?_setIfInBounds_ne (Ne.symm h)]
  · rfl

theorem advance_other (values : Values α) {i : Nat}
    (hp : ∀ input g, c.parts[i]? ≠ some (.feedback input g)) : c.advance values i = values := by
  unfold advance
  split
  · rename_i input g h
    exact absurd h (hp input g)
  · rfl

theorem foldl_advance_of_not_mem (values : Values α) {is : List Nat} {j : Nat} (h : j ∉ is) :
    Values.of (is.foldl c.advance values) j = values.of j := by
  induction is generalizing values with
  | nil => rfl
  | cons i is ih =>
    simp only [List.mem_cons, not_or] at h
    rw [List.foldl_cons, ih _ h.2, c.advance_of_ne values h.1]

/-- The parts before one, that part and those behind it. -/
theorem advanceAll_split (values : Values α) {i : Nat} (hi : i < c.parts.size) :
    ∃ rest : List Nat, (∀ j ∈ rest, i < j) ∧ c.advanceAll values =
      rest.foldl c.advance (c.advance ((List.range i).foldl c.advance values) i) := by
  obtain ⟨n, hn⟩ : ∃ n, c.parts.size = i + (n + 1) := ⟨c.parts.size - (i + 1), by omega⟩
  refine ⟨List.range' (i + 1) n, fun j hj => (List.mem_range'_1.1 hj).1, ?_⟩
  have hr : List.range c.parts.size = List.range i ++ i :: List.range' (i + 1) n := by
    rw [hn, ← List.range'_succ, List.range_eq_range', List.range_eq_range', ← List.range'_append_1,
      Nat.zero_add]
  rw [advanceAll, hr, List.foldl_append, List.foldl_cons]

/-- What part `i` finds at place `j` when it is its turn to move on. -/
def partly (values : Values α) (i j : Nat) : List α :=
  if j < i then Values.of (c.advanceAll values) j else values.of j

theorem foldl_advance_range (values : Values α) {i : Nat} (hi : i < c.parts.size) :
    Values.of ((List.range i).foldl c.advance values) = c.partly values i := by
  obtain ⟨rest, hrest, hall⟩ := c.advanceAll_split values hi
  funext j
  unfold partly
  split
  · rename_i hj
    have hn : j ∉ rest := fun hm => Nat.lt_asymm hj (hrest j hm)
    rw [hall, c.foldl_advance_of_not_mem _ hn, c.advance_of_ne _ (Nat.ne_of_lt hj)]
  · rename_i hj
    exact c.foldl_advance_of_not_mem values (fun hm => hj (List.mem_range.1 hm))

/-- A feedback object moves on along the rate that it finds when it is its turn. -/
theorem advanceAll_feedback {values : Values α} (hv : values.size = c.parts.size) {i input : Nat}
    {g : Option Nat} (hp : c.parts[i]? = some (.feedback input g)) :
    Values.of (c.advanceAll values) i =
      moved c.dt (values.of i) (rate (c.partly values i) input g) := by
  have hi := (Array.getElem?_eq_some_iff.1 hp).1
  obtain ⟨rest, hrest, hall⟩ := c.advanceAll_split values hi
  have hn : i ∉ rest := fun hm => Nat.lt_irrefl i (hrest i hm)
  have hlt : i < ((List.range i).foldl c.advance values).size := by
    rw [c.foldl_advance_size, hv]
    exact hi
  have hown : c.partly values i i = values.of i := if_neg (Nat.lt_irrefl i)
  rw [hall, c.foldl_advance_of_not_mem _ hn, c.advance_feedback hp, Values.of_set hlt, if_pos rfl,
    c.foldl_advance_range values hi, hown]

/-- Every other part keeps its value. -/
theorem advanceAll_other (values : Values α) {i : Nat}
    (hp : ∀ input g, c.parts[i]? ≠ some (.feedback input g)) :
    Values.of (c.advanceAll values) i = values.of i := by
  by_cases hi : i < c.parts.size
  · obtain ⟨rest, hrest, hall⟩ := c.advanceAll_split values hi
    have hn : i ∉ rest := fun hm => Nat.lt_irrefl i (hrest i hm)
    rw [hall, c.foldl_advance_of_not_mem _ hn, c.advance_other _ hp,
      c.foldl_advance_range values hi, partly, if_neg (Nat.lt_irrefl i)]
  · exact c.foldl_advance_of_not_mem values fun hm => hi (List.mem_range.1 hm)

theorem rate_congr {read read' : Nat → List α} {input : Nat} {g : Option Nat}
    (hin : read input = read' input) (hg : ∀ f ∈ g, read f = read' f) :
    rate read input g = rate read' input g := by
  cases g with
  | none => exact hin
  | some f => rw [rate, rate, hin, hg f rfl]

/-- In exact arithmetic the state tells the rate that it moved along. -/
theorem moved_inj [Scalar.Exact α] {dt : α} (hdt : dt ≠ Scalar.zero) {state r r' : List α}
    (hr : r.length = state.length) (hr' : r'.length = state.length) :
    moved dt state r = moved dt state r' ↔ r = r' := by
  refine ⟨fun h => ?_, fun h => by rw [h]⟩
  apply List.ext_getElem (hr.trans hr'.symm)
  intro k hk hk'
  have hs : k < state.length := hr ▸ hk
  have he : (moved dt state r)[k]? = (moved dt state r')[k]? := by rw [h]
  simpa [moved, hs, hk, hk', Scalar.Exact.add_mul_left_inj hdt] using he

/-- The rate of a feedback object, from values of the right lengths. -/
theorem rate_length {net : Network α} (hw : net.WellFormed) {i n : Nat} {input : Handle}
    {f : Option Handle} (hr : net.objects[i]? = some ⟨.feedback input f, n⟩)
    {read : Nat → List α}
    (hread : ∀ h : Handle, net.holds h = true → (read h.id).length = h.size) :
    (rate read input.id (f.map (·.id))).length = n := by
  have hs := hw.sound i _ hr
  have hin := hread input (hs.reads input (List.mem_singleton_self _)).2
  cases f with
  | none => exact hin.trans hs.fits.1
  | some f =>
    have hf := hread f (hs.integrand f rfl)
    rw [Option.map_some, rate, List.length_zipWith, hin, hf, hs.fits.1, hs.fits.2 f rfl,
      Nat.min_self]

namespace Made

variable {c} {net : Network α} {dt : α} {v : Values α} {i n : Nat} {input : Handle}
  {f : Option Handle}

/-- An object that reads no feedback object before it moves on along the recorded rate. -/
theorem rate_recorded (hm : c.Made net dt)
    (hno : ∀ h ∈ input :: f.toList, h.id < i → ∀ r : ObjectRecord α,
      net.objects[h.id]? = some r → r.object.kind ≠ "feedback") :
    rate (c.partly v i) input.id (f.map (·.id)) = rate v.of input.id (f.map (·.id)) := by
  have hsame : ∀ h ∈ input :: f.toList, c.partly v i h.id = v.of h.id := by
    intro h hh
    unfold partly
    split
    · rename_i hlt
      refine c.advanceAll_other v fun a g hfb => ?_
      obtain ⟨r, hrec, hpart⟩ := hm.record hfb
      obtain ⟨a', g', ho, -, -⟩ := part_eq_feedback hpart
      exact hno h hh hlt r hrec (by rw [ho]; rfl)
    · rfl
  refine rate_congr (hsame input List.mem_cons_self) ?_
  intro j hj
  obtain ⟨h, hh, rfl⟩ := Option.map_eq_some_iff.1 hj
  exact hsame h (List.mem_cons_of_mem _ (Option.mem_toList.2 hh))

/-- In exact arithmetic an object moves on as from recorded values only along the recorded rate. -/
theorem moved_recorded_iff [Scalar.Exact α] (hm : c.Made net dt) (hw : net.WellFormed)
    (hv : c.Sized v) (ho : net.objects[i]? = some ⟨.feedback input f, n⟩) :
    moved dt (v.of i) (rate (c.partly v i) input.id (f.map (·.id))) =
        moved dt (v.of i) (rate v.of input.id (f.map (·.id))) ↔
      rate (c.partly v i) input.id (f.map (·.id)) = rate v.of input.id (f.map (·.id)) := by
  have hown : (v.of i).length = n := by
    rw [hv.length i (Array.getElem?_eq_some_iff.1 (hm.feedback ho)).1, hm.sizes_getD ho]
  have hfound : (rate (c.partly v i) input.id (f.map (·.id))).length = n := by
    refine rate_length hw ho fun h hh => ?_
    unfold partly
    split
    · exact hm.read_length (hm.advanceAll_sized hw hv) hh
    · exact hm.read_length hv hh
  have hrecorded : (rate v.of input.id (f.map (·.id))).length = n :=
    rate_length hw ho fun h hh => hm.read_length hv hh
  exact moved_inj (Scalar.Exact.ne_zero_of_pos hm.positive) (hfound.trans hown.symm)
    (hrecorded.trans hown.symm)

end Made

end Circuit

open Circuit in
/-- A step that succeeds records values `v` and moves every feedback state on from them, along a
rate in which the feedback objects before it count with what they have become. The rate is the
recorded one where no feedback object before it is read; in exact arithmetic the states move on from
recorded values exactly where both rates agree. -/
theorem feedback_step {net : Network α} (hr : net.Reachable) {b : Backend} {dt : α}
    {s₀ s s' : Simulator α} (hb : b.engine.build net dt = .ok s₀) (hs : s₀.Reaches s)
    (hstep : s.step = (.ok (), s')) :
    ∃ v : Values α,
      Simulator.sweep s.circuit s.kernel s.nextTime s.schedule s.values = (.ok (), v) ∧
      s'.recorder.times = s.recorder.times.push s.nextTime ∧
      s'.recorder.samples =
        List.zipWith (fun (xs : Array α) h => xs ++ v.of h.id) s.recorder.samples net.probes.toList ∧
      ∀ (i n : Nat) (input : Handle) (f : Option Handle),
        net.objects[i]? = some ⟨.feedback input f, n⟩ →
        let found := rate (fun j => if j < i then s'.values.of j else v.of j) input.id
          (f.map (·.id))
        let recorded := rate v.of input.id (f.map (·.id))
        s'.values.of i = moved dt (v.of i) found ∧
        ((∀ h ∈ input :: f.toList, h.id < i → ∀ r : ObjectRecord α,
            net.objects[h.id]? = some r → r.object.kind ≠ "feedback") →
          s'.values.of i = moved dt (v.of i) recorded) ∧
        (Scalar.Exact α → (s'.values.of i = moved dt (v.of i) recorded ↔ found = recorded)) := by
  have h := (Backend.simulates hb hr.wellFormed).reaches hs
  obtain ⟨v, -, hvs, hsweep, rfl⟩ := h.settled hstep
  have hm := h.made
  have hw := h.wellFormed
  have hprobes : s.recorder.probes = net.probes.toList.map (·.id) := by
    obtain ⟨c, -, rfl⟩ := Backend.build_eq_ok.1 hb
    rw [hs.probes (b.simulator_probes c), hm.probes]
  refine ⟨v, hsweep, rfl, ?_, ?_⟩
  · rw [Simulator.next, Recorder.record, hprobes, List.zipWith_map_right]
  · intro i n input f ho found recorded
    have hp := hm.feedback ho
    have hfound : found = rate (s.circuit.partly v i) input.id (f.map (·.id)) := rfl
    have hmoved : (s.next v).values.of i = moved dt (v.of i) found := by
      rw [Simulator.next, s.circuit.advanceAll_feedback hvs.size hp, hfound, hm.dt_eq]
    refine ⟨hmoved, fun hno => ?_, fun hex => ?_⟩
    · rw [hmoved, hfound, hm.rate_recorded hno]
    · rw [hmoved, hfound]
      exact hm.moved_recorded_iff hw hvs ho

/-- Two feedback objects in a row behind a source. -/
def integratorChain : Network ℚ :=
  ⟨none, #[⟨.source (.constant [1]), 1⟩, ⟨.feedback ⟨0, 1⟩ none, 1⟩, ⟨.feedback ⟨1, 1⟩ none, 1⟩],
    #[⟨1, 1⟩, ⟨2, 1⟩]⟩

/-- The same with a linear object between the two that hands its input on. -/
def relayedChain : Network ℚ :=
  ⟨none, #[⟨.source (.constant [1]), 1⟩, ⟨.feedback ⟨0, 1⟩ none, 1⟩,
    ⟨.linear [⟨1, 1⟩] [.identity 1], 1⟩, ⟨.feedback ⟨2, 1⟩ none, 1⟩], #[⟨1, 1⟩, ⟨3, 1⟩]⟩

theorem integratorChain_reachable : integratorChain.Reachable := by
  have h₁ := Network.Reachable.create (r := .source (.constant [(1 : ℚ)])) (.empty none) rfl
  have h₂ := h₁.create (r := .feedback ⟨0, 1⟩) rfl
  have h₃ := h₂.create (r := .feedback ⟨1, 1⟩) rfl
  have h₄ := h₃.probe (h := ⟨1, 1⟩) rfl
  exact h₄.probe (h := ⟨2, 1⟩) rfl

theorem relayedChain_reachable : relayedChain.Reachable := by
  have h₁ := Network.Reachable.create (r := .source (.constant [(1 : ℚ)])) (.empty none) rfl
  have h₂ := h₁.create (r := .feedback ⟨0, 1⟩) rfl
  have h₃ := h₂.create (r := .linear [⟨1, 1⟩] [.identity 1]) rfl
  have h₄ := h₃.create (r := .feedback ⟨2, 1⟩) rfl
  have h₅ := h₄.probe (h := ⟨1, 1⟩) rfl
  exact h₅.probe (h := ⟨3, 1⟩) rfl

/-- The chain ready for stepping. -/
def integratorChainStart : Simulator ℚ :=
  Backend.cpu.simulator
    ⟨1, #[.source (.constant [1]), .feedback 0 none, .feedback 1 none],
      integratorChain.objects.map (·.size), [1, 2]⟩

open Circuit in
theorem integratorChain_step :
    integratorChain.Reachable ∧
      Backend.cpu.engine.build integratorChain 1 = .ok integratorChainStart ∧
      integratorChainStart.Reaches integratorChainStart ∧
      integratorChainStart.step = (.ok (), integratorChainStart.step.2) ∧
      ∃ v : Values ℚ, integratorChainStart.step.2.values.of 2 =
        moved 1 (v.of 2)
          (rate (fun j => if j < 2 then integratorChainStart.step.2.values.of j else v.of j) 1
            none) := by
  have hr := integratorChain_reachable
  have hb : Backend.cpu.engine.build integratorChain 1 = .ok integratorChainStart := rfl
  have hstep : integratorChainStart.step = (.ok (), integratorChainStart.step.2) := rfl
  obtain ⟨v, -, -, -, hstates⟩ := feedback_step hr hb .start hstep
  exact ⟨hr, hb, .start, hstep, v, (hstates 2 1 ⟨1, 1⟩ none rfl).1⟩

open Circuit in
/-- The second feedback object reads what the first one has become, not what was recorded of it, and
a relay between the two changes its trace. -/
theorem integratorChain_not_simultaneous :
    integratorChain.Reachable ∧
      Backend.cpu.engine.build integratorChain 1 = .ok integratorChainStart ∧
      (∃ (s' : Simulator ℚ) (v : Values ℚ), integratorChainStart.step = (.ok (), s') ∧
        Simulator.sweep integratorChainStart.circuit integratorChainStart.kernel
          integratorChainStart.nextTime integratorChainStart.schedule integratorChainStart.values =
            (.ok (), v) ∧
        s'.values.of 2 ≠ moved 1 (v.of 2) (rate v.of 1 none)) ∧
      (integratorChainStart.run 3).2.recorder.samples = [#[0, 1, 2], #[0, 1, 3]] ∧
      relayedChain.Reachable ∧ ∃ s : Simulator ℚ,
        Backend.cpu.engine.build relayedChain 1 = .ok s ∧
        (s.run 3).2.recorder.samples = [#[0, 1, 2], #[0, 0, 1]] := by
  refine ⟨integratorChain_reachable, rfl, ⟨_, _, rfl, rfl, ?_⟩, ?_, relayedChain_reachable, _, rfl, ?_⟩
  · decide +kernel
  · decide +kernel
  · decide +kernel

end SignalGraph
