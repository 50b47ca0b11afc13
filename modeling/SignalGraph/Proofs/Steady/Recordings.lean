import SignalGraph.Proofs.Run.Captures

namespace SignalGraph

namespace TimeAxis

/-- The index of the first value at index `i` in step `k`. -/
def index (axis : TimeAxis) (i : List Nat) (k : Nat) : List Nat :=
  match axis with
  | leading => k :: i ++ [0]
  | trailing => i ++ [k, 0]

/-- An array of `n` steps, each of them an array of numbers. -/
structure Repeats {α : Type} [Inhabited α] (axis : TimeAxis) (n : Nat) (a out : NDArray α) :
    Prop where
  shape : out.shape = axis.shape a.shape n (if a.size = 0 then 0 else 1)
  entry : ∀ i k, Shape.Within i a.shape → k < n → out.get? (axis.index i k) = some (a.entry i)

end TimeAxis

/-- Places of one value or none take no part in the limit of the storage. -/
theorem Shape.addressable_width {s : Shape} {n width : Nat} (hw : width ≤ 1) :
    addressable (s ++ [n, width]) = addressable (s ++ [n]) := by
  have hcases : width = 0 ∨ width = 1 := by omega
  rcases hcases with rfl | rfl
  · simp [addressable, List.filter_append, size_append, List.filter_cons]
  · by_cases hn : n = 0
    · simp [addressable, List.filter_append, size_append, hn, size]
    · simp [addressable, List.filter_append, size_append, hn, size]

variable {α : Type} [Scalar α]

namespace TimeAxis.Stacks

variable {axis : TimeAxis} {n : Nat} {traces : NDArray (Matrix α)} {a out : NDArray α}

/-- Columns of equal numbers make up an array that repeats the numbers. -/
theorem repeats (h : axis.Stacks n (if a.size = 0 then 0 else 1) traces out)
    (hs : traces.shape = a.shape)
    (hrows : List.Forall₂ (fun (m : Matrix α) x => m.nrows = n ∧ m.ncols = 1 ∧ ∀ k < n, m.row k = [x])
      traces.toList a.toList) : axis.Repeats n a out := by
  refine ⟨hs ▸ h.shape, fun i k hi hk => ?_⟩
  obtain ⟨m, hm, -, hc, hrow⟩ := NDArray.forall₂_get? hs hrows (NDArray.get?_eq_entry hi)
  have hwidth : 0 < if a.size = 0 then 0 else 1 := by
    have := Shape.offset_lt hi
    rw [if_neg (by rw [NDArray.size]; omega)]
    exact Nat.one_pos
  have hentry : m.entry k 0 = a.entry i := by
    have := hrow k hk
    rw [Matrix.row, hc] at this
    exact List.head_eq_of_cons_eq this
  have hplace : axis.index i k = axis.place i k 0 := by
    cases axis <;> rfl
  rw [hplace, h.entry i m hm k hk 0 hwidth, hentry]

end TimeAxis.Stacks

namespace Capture

variable {c : Capture} {r : Recording α} {a : NDArray α}

/-- The traces of the taps on nodes that have single numbers, as an array. -/
theorem extract_total {n : Nat} (hc : c.shape = a.shape)
    (hall : List.Forall₂ (fun tap x => ∃ m : Matrix α, trace r tap = .ok m ∧
      (m.nrows = n ∧ m.ncols = 1 ∧ ∀ k < n, m.row k = [x])) c.toList a.toList) :
    ∃ ms, c.extract r = .ok ms ∧ ms.shape = a.shape ∧
      List.Forall₂ (fun tap m => trace r tap = .ok m) c.toList ms.toList ∧
      List.Forall₂ (fun (m : Matrix α) x => m.nrows = n ∧ m.ncols = 1 ∧ ∀ k < n, m.row k = [x])
        ms.toList a.toList := by
  obtain ⟨list, htraces, hms⟩ := forall₂_between hall
  obtain ⟨ms, hextract, hshape, rfl⟩ := NDArray.mapM_ok htraces
  exact ⟨ms, hextract, hshape.trans hc, htraces, hms⟩

/-- Single numbers that stay as they are make up one array, unless it has too many places. -/
theorem extractDense_repeats (axis : TimeAxis) (hc : c.shape = a.shape)
    (hsizes : ∀ tap ∈ c.toList, tap.size = 1)
    (hall : List.Forall₂ (fun tap x => ∃ m : Matrix α, trace r tap = .ok m ∧
      (m.nrows = r.steps ∧ m.ncols = 1 ∧ ∀ k < r.steps, m.row k = [x])) c.toList a.toList) :
    ∃ out, axis.Repeats r.steps a out ∧ c.extractDense r axis =
      if Shape.addressable (a.shape ++ [r.steps]) then .ok out
      else .error (.graph (.shape (.invalid (.storage .overflow)))) := by
  obtain ⟨ms, -, hshape, htraces, hms⟩ := extract_total hc hall
  have hrows : ∀ m ∈ ms.toList, m.nrows = r.steps := by
    intro m hm
    obtain ⟨x, hx, -⟩ := forall₂_mem_left hms hm
    exact hx
  have hsize : c.toList.length = a.size := by rw [NDArray.size_toList, hc, NDArray.size]
  have hwidth : (c.toList.map (·.size)).headD 0 = if a.size = 0 then 0 else 1 := by
    cases hlist : c.toList with
    | nil => simp [← hsize, hlist]
    | cons tap taps => simp [← hsize, hlist, hsizes tap (by simp [hlist])]
  have hall' : ∀ tap ∈ c.toList, tap.size = if a.size = 0 then 0 else 1 := by
    intro tap htap
    rw [hsizes tap htap, if_neg (hsize ▸ List.length_pos_of_mem htap).ne']
  obtain ⟨out, hstacks, hdense⟩ :=
    extractDense_stacks axis (hshape.trans hc.symm) htraces hrows hall' hwidth
  refine ⟨out, hstacks.repeats hshape hms, ?_⟩
  rw [hdense, hc, Shape.addressable_width (by split <;> decide)]

end Capture

end SignalGraph
