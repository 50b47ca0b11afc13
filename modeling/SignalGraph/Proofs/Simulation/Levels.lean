import Mathlib.Data.List.GetD
import Mathlib.Data.List.Induction
import SignalGraph.Proofs.Simulation.Schedules

namespace SignalGraph.Circuit

variable {α : Type} {c : Circuit α}

theorem getD_push (ds : Array Nat) (d i : Nat) :
    (ds.push d).getD i 0 = if i = ds.size then d else ds.getD i 0 := by
  simp only [Array.getD_eq_getD_getElem?, Array.getElem?_push]
  split <;> rfl

theorem depthOf_push {ds : Array Nat} {d : Nat} {p : Part α} (h : ∀ j ∈ p.stepInputs, j < ds.size) :
    depthOf (ds.push d) p = depthOf ds p := by
  have hm : (p.stepInputs.map fun i => (ds.push d).getD i 0 + 1) =
      p.stepInputs.map fun i => ds.getD i 0 + 1 := by
    refine List.map_congr_left fun j hj => ?_
    rw [getD_push, if_neg (Nat.ne_of_lt (h j hj))]
  rw [depthOf, hm, depthOf]

/-- There is a level for each part, the one that its inputs' levels call for. -/
theorem depths_spec (hf : c.Forward) :
    c.depths.size = c.parts.size ∧
      ∀ i p, c.parts[i]? = some p → c.depths.getD i 0 = depthOf c.depths p := by
  let Right (k : Nat) (ds : Array Nat) : Prop :=
    ds.size = k ∧ ∀ i p, i < k → c.parts[i]? = some p → ds.getD i 0 = depthOf ds p
  have hfold : Right c.parts.size c.depths := by
    refine Array.foldl_induction Right ⟨rfl, fun i p hi => absurd hi (Nat.not_lt_zero i)⟩ ?_
    intro k ds ⟨hsize, hds⟩
    refine ⟨by rw [Array.size_push, hsize], ?_⟩
    intro i p hi hp
    have hin : ∀ j ∈ p.stepInputs, j < ds.size := by
      intro j hj
      have := hf i p hp j hj
      omega
    rw [depthOf_push hin]
    rcases Nat.lt_succ_iff_lt_or_eq.1 hi with hlt | rfl
    · rw [getD_push, if_neg (by omega)]
      exact hds i p hlt hp
    · have hpk : c.parts[k] = p := by simpa using hp
      rw [getD_push, if_pos hsize.symm, hpk]
  exact ⟨hfold.1, fun i p hp => hfold.2 i p (Array.getElem?_eq_some_iff.1 hp).1 hp⟩

/-- What a part reads lies on lower levels. -/
theorem depth_input_lt (hf : c.Forward) {i j : Nat} {p : Part α} (hp : c.parts[i]? = some p)
    (hj : j ∈ p.stepInputs) : c.depths.getD j 0 < c.depths.getD i 0 := by
  rw [(depths_spec hf).2 i p hp, depthOf]
  exact List.le_max?_getD_of_mem (List.mem_map.2 ⟨j, hj, rfl⟩)

/-- How many levels it takes to have a part on each of these. -/
def height (depths : List Nat) : Nat := (depths.map (· + 1)).max?.getD 0

/-- The places of the depths on each level, in ascending order. -/
def layered (depths : List Nat) : List (List Nat) :=
  (List.range (height depths)).map fun k =>
    (List.range depths.length).filter fun i => depths.getD i 0 == k

theorem height_le {depths : List Nat} {n : Nat} : height depths ≤ n ↔ ∀ d ∈ depths, d < n := by
  constructor
  · intro h d hd
    exact Nat.lt_of_lt_of_le (List.le_max?_getD_of_mem (List.mem_map_of_mem hd)) h
  · intro h
    cases hm : (depths.map (· + 1)).max? with
    | none => simp [height, hm]
    | some m =>
      obtain ⟨d, hd, rfl⟩ := List.mem_map.1 (List.max?_mem hm)
      rw [height, hm]
      exact h d hd

theorem height_concat (depths : List Nat) (d : Nat) :
    height (depths ++ [d]) = max (height depths) (d + 1) := by
  refine eq_of_forall_ge_iff fun n => ?_
  rw [Nat.max_le, height_le, height_le, List.forall_mem_append, List.forall_mem_singleton]
  rfl

theorem layered_getElem? (depths : List Nat) (k : Nat) :
    (layered depths)[k]? = if k < height depths then
      some ((List.range depths.length).filter fun i => depths.getD i 0 == k) else none := by
  rw [layered, List.getElem?_map]
  split
  · rename_i hk
    rw [List.getElem?_range hk, Option.map_some]
  · rename_i hk
    rw [List.getElem?_eq_none (by simpa using hk), Option.map_none]

/-- One part more is at the end of its level. -/
theorem raise_layered (depths : List Nat) (d : Nat) :
    raise (layered depths) d depths.length = layered (depths ++ [d]) := by
  have hlevel : ∀ k, ((List.range (depths ++ [d]).length).filter fun i =>
      (depths ++ [d]).getD i 0 == k) =
        ((List.range depths.length).filter fun i => depths.getD i 0 == k) ++
          if d = k then [depths.length] else [] := by
    intro k
    have hold : ((List.range depths.length).filter fun i => (depths ++ [d]).getD i 0 == k) =
        (List.range depths.length).filter fun i => depths.getD i 0 == k :=
      List.filter_congr fun i hi => by rw [List.getD_append _ _ 0 i (List.mem_range.1 hi)]
    rw [List.length_append, List.length_singleton, List.range_succ, List.filter_append, hold]
    by_cases hd : d = k <;> simp [hd]
  have hlow : ∀ k, height depths ≤ k →
      ((List.range depths.length).filter fun i => depths.getD i 0 == k) = [] := by
    intro k hk
    refine List.filter_eq_nil_iff.2 fun i hi heq => ?_
    rw [List.getD_eq_getElem _ _ (List.mem_range.1 hi), beq_iff_eq] at heq
    exact Nat.ne_of_lt (height_le.1 hk _ (List.getElem_mem _)) heq
  have hlength : (layered depths).length = height depths := by
    rw [layered, List.length_map, List.length_range]
  refine List.ext_getElem? fun k => ?_
  rw [raise, List.getElem?_modify, layered_getElem?, height_concat, hlevel, hlength]
  rcases Nat.lt_or_ge k (height depths) with hk | hk
  · rw [List.getElem?_append_left (hlength.symm ▸ hk), layered_getElem?, if_pos hk,
      if_pos (Nat.lt_of_lt_of_le hk (Nat.le_max_left _ _))]
    by_cases hd : d = k <;> simp [hd]
  · have hadded : k - height depths < d + 1 - height depths ↔
        k < max (height depths) (d + 1) := by omega
    rw [List.getElem?_append_right (hlength.symm ▸ hk), hlow k hk, hlength, List.getElem?_replicate,
      if_congr hadded rfl rfl]
    by_cases hd : d = k
    · simp [hd]
    · simp [hd]

/-- Part after part, the levels grow to those of all depths. -/
theorem levels_eq_layered (c : Circuit α) : c.levels = layered c.depths.toList := by
  rw [levels]
  induction c.depths.toList using List.reverseRecOn with
  | nil => rfl
  | append_singleton depths d ih =>
    rw [List.zipIdx_append, List.foldl_append, ih, Nat.zero_add]
    exact raise_layered depths d

/-- Each level has the parts of its depth. -/
theorem levels_eq_filter (c : Circuit α) :
    c.levels = (List.range (height c.depths.toList)).map fun k =>
      (List.range c.depths.size).filter fun i => c.depths.getD i 0 == k := by
  have hdepth : ∀ i, c.depths.toList.getD i 0 = c.depths.getD i 0 := fun i => by
    rw [List.getD_eq_getElem?_getD, Array.getD_eq_getD_getElem?, Array.getElem?_toList]
  simp only [levels_eq_layered, layered, hdepth, Array.length_toList]

theorem depth_lt_height {i : Nat} (hi : i < c.depths.size) :
    c.depths.getD i 0 < height c.depths.toList := by
  have hget : c.depths.getD i 0 = c.depths[i] := by simp [Array.getD, hi]
  rw [hget]
  exact height_le.1 (Nat.le_refl _) _ (Array.getElem_mem_toList hi)

/-- From level `k` on, with all lower levels done. -/
theorem follows_levels_from (hf : c.Forward) (n k : Nat)
    (hn : ∀ i < c.parts.size, c.depths.getD i 0 < k + n) :
    c.Follows {i | i < c.parts.size ∧ c.depths.getD i 0 < k}
      ((List.range' k n).map fun l =>
        (List.range c.depths.size).filter fun i => c.depths.getD i 0 == l) := by
  induction n generalizing k with
  | zero =>
    intro i hi
    exact ⟨hi, hn i hi⟩
  | succ n ih =>
    have hmem : ∀ i, i ∈ ((List.range c.depths.size).filter fun i => c.depths.getD i 0 == k) ↔
        i < c.parts.size ∧ c.depths.getD i 0 = k := by
      intro i
      simp [(depths_spec hf).1]
    refine ⟨⟨List.nodup_range.filter _, ?_⟩, ?_⟩
    · intro i hi
      obtain ⟨hlt, hd⟩ := (hmem i).1 hi
      refine ⟨hlt, fun hlow => by have := hlow.2; omega, ?_⟩
      intro p hp j hj
      have hji := hf i p hp j hj
      have hdj := depth_input_lt hf hp hj
      exact ⟨by omega, by omega⟩
    · have hset : ({i | i < c.parts.size ∧ c.depths.getD i 0 < k} ∪
          {i | i ∈ (List.range c.depths.size).filter fun i => c.depths.getD i 0 == k} : Set Nat) =
          {i | i < c.parts.size ∧ c.depths.getD i 0 < k + 1} := by
        ext i
        simp only [Set.mem_union, Set.mem_ofPred_eq, hmem]
        omega
      rw [hset]
      exact ih (k + 1) fun i hi => by have := hn i hi; omega

theorem follows_levels (hf : c.Forward) : c.Follows ∅ c.levels := by
  have h := follows_levels_from hf (height c.depths.toList) 0 fun i hi => by
    rw [Nat.zero_add]
    exact depth_lt_height ((depths_spec hf).1 ▸ hi)
  have hempty : ({i | i < c.parts.size ∧ c.depths.getD i 0 < 0} : Set Nat) = ∅ := by
    ext i
    simp
  rwa [hempty, ← List.range_eq_range', ← levels_eq_filter] at h

/-- From part `k` on, with all parts before it done. -/
theorem follows_oneByOne_from (hf : c.Forward) (n k : Nat) (hn : k + n = c.parts.size) :
    c.Follows {i | i < k} ((List.range' k n).map fun i => [i]) := by
  induction n generalizing k with
  | zero =>
    intro i hi
    exact Nat.lt_of_lt_of_le hi (by omega)
  | succ n ih =>
    refine ⟨⟨List.pairwise_singleton _ k, ?_⟩, ?_⟩
    · intro i hi
      obtain rfl := List.mem_singleton.1 hi
      exact ⟨by omega, Nat.lt_irrefl i, fun p hp j hj => hf i p hp j hj⟩
    · have hset : ({i | i < k} ∪ {i | i ∈ [k]} : Set Nat) = {i | i < k + 1} := by
        ext i
        simp only [Set.mem_union, Set.mem_ofPred_eq, List.mem_singleton]
        omega
      rw [hset]
      exact ih (k + 1) (by omega)

theorem follows_oneByOne (hf : c.Forward) : c.Follows ∅ c.oneByOne := by
  have h := follows_oneByOne_from hf c.parts.size 0 (by omega)
  have hempty : ({i | i < 0} : Set Nat) = ∅ := by
    ext i
    simp
  rw [hempty, ← List.range_eq_range'] at h
  exact h

end SignalGraph.Circuit
