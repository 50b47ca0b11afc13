import Mathlib.Order.Bounds.Basic
import SignalGraph.Proofs.Arithmetic.Rational
import SignalGraph.Proofs.Simulation.Compile
import SignalGraph.Proofs.Simulation.Levels

namespace SignalGraph

variable {α : Type}

namespace Circuit

/-- A chain of so many in-step readings ends at a part. -/
inductive Chain (c : Circuit α) : Nat → Nat → Prop
  | start (i : Nat) : Chain c 0 i
  | step {k j i : Nat} {p : Part α} :
    Chain c k j → c.parts[i]? = some p → j ∈ p.stepInputs → Chain c (k + 1) i

/-- Batches in which each part stands once, behind the batches of all that it reads in a step. -/
structure Layers (c : Circuit α) (batches : List (List Nat)) : Prop where
  once : batches.flatten.Perm (List.range c.parts.size)
  behind : ∀ (k : Nat) (batch : List Nat), batches[k]? = some batch → ∀ i ∈ batch,
    ∀ p : Part α, c.parts[i]? = some p → ∀ j ∈ p.stepInputs,
      ∃ l < k, ∃ earlier, batches[l]? = some earlier ∧ j ∈ earlier

variable {c : Circuit α}

/-- A part stands at least as many batches down as a chain to it is long. -/
theorem Layers.chain_le {batches : List (List Nat)} (hl : c.Layers batches) {n i : Nat}
    (hn : c.Chain n i) {k : Nat} {batch : List Nat} (hk : batches[k]? = some batch)
    (hi : i ∈ batch) : n ≤ k := by
  induction hn generalizing k batch with
  | start i => exact Nat.zero_le k
  | step _ hp hj ih =>
    obtain ⟨l, hlk, earlier, he, hje⟩ := hl.behind k batch hk _ hi _ hp _ hj
    have hnl := ih he hje
    omega

/-- A part above the lowest level reads one on the level below its own. -/
theorem exists_input_below (hf : c.Forward) {i d : Nat} {p : Part α} (hp : c.parts[i]? = some p)
    (hd : c.depths.getD i 0 = d + 1) : ∃ j ∈ p.stepInputs, c.depths.getD j 0 = d := by
  have hspec := (depths_spec hf).2 i p hp
  rw [hd, depthOf] at hspec
  cases hm : (p.stepInputs.map fun i => c.depths.getD i 0 + 1).max? with
  | none =>
    rw [hm] at hspec
    cases hspec
  | some m =>
    rw [hm, Option.getD_some] at hspec
    obtain ⟨j, hj, hjm⟩ := List.mem_map.1 (List.max?_mem hm)
    exact ⟨j, hj, by omega⟩

theorem Chain.le_depth (hf : c.Forward) {n i : Nat} (hn : c.Chain n i) :
    n ≤ c.depths.getD i 0 := by
  induction hn with
  | start i => exact Nat.zero_le _
  | step _ hp hj ih =>
    have hlt := depth_input_lt hf hp hj
    omega

theorem chain_depth (hf : c.Forward) {d i : Nat} (hi : i < c.parts.size)
    (hd : c.depths.getD i 0 = d) : c.Chain d i := by
  induction d generalizing i with
  | zero => exact .start i
  | succ d ih =>
    have hp : c.parts[i]? = some c.parts[i] := Array.getElem?_eq_getElem hi
    obtain ⟨j, hj, hjd⟩ := exists_input_below hf hp hd
    have hji := hf i _ hp j hj
    exact .step (ih (by omega) hjd) hp hj

/-- The level of a part is the length of the longest chain to it. -/
theorem depth_greatest (hf : c.Forward) {i : Nat} (hi : i < c.parts.size) :
    IsGreatest {n | c.Chain n i} (c.depths.getD i 0) :=
  ⟨chain_depth hf hi rfl, fun _ hn => hn.le_depth hf⟩

/-- Below a part there are parts on all lower levels. -/
theorem exists_depth (hf : c.Forward) {i d k : Nat} (hi : i < c.parts.size)
    (hd : c.depths.getD i 0 = d) (hk : k ≤ d) : ∃ j < c.parts.size, c.depths.getD j 0 = k := by
  induction d generalizing i with
  | zero => exact ⟨i, hi, by omega⟩
  | succ d ih =>
    rcases Nat.lt_or_eq_of_le hk with hlt | rfl
    · have hp : c.parts[i]? = some c.parts[i] := Array.getElem?_eq_getElem hi
      obtain ⟨j, hj, hjd⟩ := exists_input_below hf hp hd
      have hji := hf i _ hp j hj
      exact ih (by omega) hjd (by omega)
    · exact ⟨i, hi, hd⟩

/-- There are levels up to the highest one of a part. -/
theorem lt_length_levels (hf : c.Forward) {k : Nat} :
    k < c.levels.length ↔ ∃ i < c.parts.size, k ≤ c.depths.getD i 0 := by
  have hsize := (depths_spec hf).1
  have hlength : c.levels.length = height c.depths.toList := by
    rw [levels_eq_filter, List.length_map, List.length_range]
  rw [hlength]
  constructor
  · intro hk
    have hsome := mt height_le.2 (Nat.not_le_of_lt hk)
    simp only [not_forall, Nat.not_lt] at hsome
    obtain ⟨d, hd, hkd⟩ := hsome
    obtain ⟨i, hi, rfl⟩ := Array.mem_iff_getElem.1 (Array.mem_toList_iff.1 hd)
    have hget : c.depths.getD i 0 = c.depths[i] := by simp [Array.getD, hi]
    exact ⟨i, hsize ▸ hi, hget.symm ▸ hkd⟩
  · rintro ⟨i, hi, hk⟩
    exact Nat.lt_of_le_of_lt hk (depth_lt_height (hsize ▸ hi))

/-- The parts on a level, in ascending order. -/
def onLevel (c : Circuit α) (k : Nat) : List Nat :=
  (List.range c.parts.size).filter fun i => c.depths.getD i 0 == k

@[simp] theorem mem_onLevel {k i : Nat} :
    i ∈ c.onLevel k ↔ i < c.parts.size ∧ c.depths.getD i 0 = k := by
  rw [onLevel, List.mem_filter, List.mem_range, beq_iff_eq]

theorem levels_eq (hf : c.Forward) : c.levels = (List.range c.levels.length).map c.onLevel := by
  have honLevel : c.onLevel = fun k =>
      (List.range c.depths.size).filter fun i => c.depths.getD i 0 == k := by
    funext k
    rw [onLevel, (depths_spec hf).1]
  rw [honLevel]
  conv_rhs => rw [levels_eq_filter, List.length_map, List.length_range]
  exact levels_eq_filter c

theorem levels_getElem? (hf : c.Forward) {k : Nat} {level : List Nat} :
    c.levels[k]? = some level ↔ k < c.levels.length ∧ level = c.onLevel k := by
  conv_lhs => rw [levels_eq hf]
  constructor
  · intro h
    obtain ⟨hk, rfl⟩ := List.getElem?_eq_some_iff.1 h
    rw [List.length_map, List.length_range] at hk
    exact ⟨hk, by rw [List.getElem_map, List.getElem_range]⟩
  · rintro ⟨hk, rfl⟩
    rw [List.getElem?_map, List.getElem?_range hk, Option.map_some]

theorem mem_level (hf : c.Forward) {k i : Nat} :
    (∃ level, c.levels[k]? = some level ∧ i ∈ level) ↔
      i < c.parts.size ∧ c.depths.getD i 0 = k := by
  rw [← mem_onLevel]
  constructor
  · rintro ⟨level, hk, hi⟩
    obtain ⟨-, rfl⟩ := (levels_getElem? hf).1 hk
    exact hi
  · intro hi
    obtain ⟨hisize, hd⟩ := mem_onLevel.1 hi
    have hk := (lt_length_levels hf).2 ⟨i, hisize, Nat.le_of_eq hd.symm⟩
    exact ⟨_, (levels_getElem? hf).2 ⟨hk, rfl⟩, hi⟩

theorem levels_once (hf : c.Forward) : c.levels.flatten.Perm (List.range c.parts.size) := by
  have hnodup : c.levels.flatten.Nodup := by
    rw [levels_eq hf]
    refine List.pairwise_flatten.2 ⟨?_, List.pairwise_map.2 ?_⟩
    · intro level hlevel
      obtain ⟨k, -, rfl⟩ := List.mem_map.1 hlevel
      exact List.nodup_range.filter _
    · refine List.nodup_range.imp fun {k l} hkl i hi j hj hij => hkl ?_
      subst hij
      exact (mem_onLevel.1 hi).2.symm.trans (mem_onLevel.1 hj).2
  refine (List.perm_ext_iff_of_nodup hnodup List.nodup_range).2 fun i => ?_
  rw [List.mem_range, List.mem_flatten]
  constructor
  · rintro ⟨level, hlevel, hi⟩
    obtain ⟨k, hk⟩ := List.mem_iff_getElem?.1 hlevel
    exact ((mem_level hf).1 ⟨level, hk, hi⟩).1
  · intro hi
    obtain ⟨level, hk, hm⟩ := (mem_level hf).2 ⟨hi, rfl⟩
    exact ⟨level, List.mem_of_getElem? hk, hm⟩

theorem layers_levels (hf : c.Forward) : c.Layers c.levels where
  once := levels_once hf
  behind := by
    intro k level hk i hi p hp j hj
    obtain ⟨-, rfl⟩ := (mem_level hf).1 ⟨level, hk, hi⟩
    have hji := hf i p hp j hj
    have hisize := (Array.getElem?_eq_some_iff.1 hp).1
    obtain ⟨earlier, he, hm⟩ := (mem_level hf).2 ⟨Nat.lt_trans hji hisize, rfl⟩
    exact ⟨_, depth_input_lt hf hp hj, earlier, he, hm⟩

/-- No layering has fewer batches than there are levels: the longest chain of all needs as many. -/
theorem Layers.length_levels_le (hf : c.Forward) {batches : List (List Nat)}
    (hl : c.Layers batches) : c.levels.length ≤ batches.length := by
  refine Nat.le_of_not_lt fun hlt => ?_
  obtain ⟨i, hi, hd⟩ := (lt_length_levels hf).1 hlt
  obtain ⟨batch, hb, him⟩ := List.mem_flatten.1 (hl.once.mem_iff.2 (List.mem_range.2 hi))
  obtain ⟨k, hk⟩ := List.mem_iff_getElem?.1 hb
  have hkd := hl.chain_le (chain_depth hf hi rfl) hk him
  have hklt := (List.getElem?_eq_some_iff.1 hk).1
  omega

end Circuit

variable [Scalar α]

/-- In every circuit of a network that calls can make, the levels layer the parts, each level is in
ascending order and not empty, and it holds the parts to which the longest chain of readings is as
long as the level's number says. So sources and feedback objects are on the lowest level, and no
layering has fewer batches. -/
theorem levels_longest_chains {net : Network α} (hr : net.Reachable) {dt : α} {c : Circuit α}
    (hc : Circuit.ofNetwork net dt = .ok c) :
    c.Layers c.levels ∧
    (∀ level ∈ c.levels, level.Pairwise (· < ·) ∧ level ≠ []) ∧
    (∀ (k : Nat) (level : List Nat), c.levels[k]? = some level →
      ∀ i ∈ level, IsGreatest {n | c.Chain n i} k) ∧
    (∀ (i : Nat) (p : Part α), c.parts[i]? = some p → p.stepInputs = [] →
      ∃ level, c.levels[0]? = some level ∧ i ∈ level) ∧
    ∀ batches : List (List Nat), c.Layers batches → c.levels.length ≤ batches.length := by
  have hf : c.Forward := (Circuit.ofNetwork_eq_ok.1 hc).forward hr.wellFormed
  refine ⟨Circuit.layers_levels hf, ?_, ?_, ?_, fun _ hl => hl.length_levels_le hf⟩
  · intro level hlevel
    obtain ⟨k, hk⟩ := List.mem_iff_getElem?.1 hlevel
    obtain ⟨hlt, rfl⟩ := (Circuit.levels_getElem? hf).1 hk
    obtain ⟨i, hi, hd⟩ := (Circuit.lt_length_levels hf).1 hlt
    obtain ⟨j, hj, hjd⟩ := Circuit.exists_depth hf hi rfl hd
    exact ⟨List.pairwise_lt_range.filter _, List.ne_nil_of_mem (Circuit.mem_onLevel.2 ⟨hj, hjd⟩)⟩
  · intro k level hk i hi
    obtain ⟨hisize, rfl⟩ := (Circuit.mem_level hf).1 ⟨level, hk, hi⟩
    exact Circuit.depth_greatest hf hisize
  · intro i p hp hempty
    refine (Circuit.mem_level hf).2 ⟨(Array.getElem?_eq_some_iff.1 hp).1, ?_⟩
    rw [(Circuit.depths_spec hf).2 i p hp, Circuit.depthOf, hempty]
    rfl

/-- A source, an integrator of it and a sum of both that the integrator's rate depends on, smoothed. -/
def smoothedSum : Network ℚ :=
  ⟨none, #[⟨.source (.constant [1]), 1⟩, ⟨.feedback ⟨0, 1⟩ (some ⟨2, 1⟩), 1⟩,
    ⟨.linear [⟨0, 1⟩, ⟨1, 1⟩] [.identity 1, .identity 1], 1⟩, ⟨.filter ⟨2, 1⟩ 2, 1⟩], #[]⟩

theorem smoothedSum_reachable : smoothedSum.Reachable := by
  have h₁ := Network.Reachable.create (r := .source (.constant [(1 : ℚ)])) (.empty none) rfl
  have h₂ := h₁.create (r := .feedback ⟨0, 1⟩) rfl
  have h₃ := h₂.create (r := .linear [⟨0, 1⟩, ⟨1, 1⟩] [.identity 1, .identity 1]) rfl
  have h₄ := h₃.create (r := .filter ⟨2, 1⟩ (2 : ℚ)) rfl
  exact h₄.connect (h := ⟨1, 1⟩) (f := ⟨2, 1⟩) rfl

theorem smoothedSum_levels :
    smoothedSum.Reachable ∧ ∃ c, Circuit.ofNetwork smoothedSum 1 = .ok c ∧
      c.levels = [[0, 1], [2], [3]] ∧ IsGreatest {n | c.Chain n 3} 2 ∧
      ∀ batches : List (List Nat), c.Layers batches → 3 ≤ batches.length := by
  have hc : Circuit.ofNetwork smoothedSum 1 = .ok _ := rfl
  obtain ⟨-, -, hchains, -, hleast⟩ := levels_longest_chains smoothedSum_reachable hc
  exact ⟨smoothedSum_reachable, _, hc, rfl, hchains 2 [3] rfl 3 List.mem_cons_self, hleast⟩

end SignalGraph
