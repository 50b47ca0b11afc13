import SignalGraph.Proofs.Ensemble.Forms
import SignalGraph.Proofs.Simulation.Bounds

namespace SignalGraph

open Scalar

variable {α : Type} [Scalar α]

namespace Ridge

/-- The rows of a triangle as a matrix. -/
def lower (rows : List (List α)) : Matrix α := .ofFn rows.length rows.length (coefficient rows)

theorem entry_lower (rows : List (List α)) {i j : Nat} (hi : i < rows.length)
    (hj : j < rows.length) : (lower rows).entry i j = coefficient rows i j :=
  Matrix.entry_ofFn _ hi hj

theorem Staircase.coefficient_pos {rows : List (List α)} (h : Staircase 0 rows) {i : Nat}
    (hi : i < rows.length) : less zero (coefficient rows i i) = true := by
  have hr : rows[i]? = some rows[i] := List.getElem?_eq_getElem hi
  obtain ⟨front, d, hrow, hl, hd⟩ := h.getElem? hr
  rw [Nat.zero_add] at hl
  rwa [coefficient_of_getElem? hr, hrow, ← hl, List.getElem?_concat_length, Option.getD_some]

theorem below_rows {a : Matrix α} (h : a.ncols = a.nrows) : Below a.entry 0 a.rows := by
  intro i e he j hj
  have hi : i < a.nrows := by
    have := (List.getElem?_eq_some_iff.1 he).1
    rwa [a.length_rows] at this
  rw [a.getElem?_rows hi] at he
  cases he
  rw [Nat.zero_add] at hj ⊢
  exact a.getElem?_row i (by omega)

/-- The largest activity, zero at least. -/
def peak (a : Matrix α) : α := a.data.toList.foldl larger zero

/-- What is added to the diagonal of the normal equations. -/
def penalty (a : Matrix α) : α := ofNat a.nrows * (noise * peak a) * (noise * peak a)

omit [Scalar α] in
theorem mapIdx_map_range {β γ : Type} (n : Nat) (f : Nat → β) (g : Nat → β → γ) :
    ((List.range n).map f).mapIdx g = (List.range n).map fun i => g i (f i) := by
  apply List.ext_getElem
  · simp
  · simp

/-- The rows of the normal equations as the decoders compute them. -/
theorem mapIdx_tuning (a : Matrix α) (c : α) :
    (((List.range a.ncols).map a.column).mapIdx fun i x =>
      ((List.range a.ncols).map a.column).mapIdx fun j y =>
        if i = j then dot x y + c else dot x y) = (a.normal c).rows := by
  rw [mapIdx_map_range]
  apply List.map_congr_left
  intro i hi
  rw [mapIdx_map_range]
  apply List.map_congr_left
  intro j hj
  exact (a.entry_normal c (List.mem_range.1 hi) (List.mem_range.1 hj)).symm

/-- The right-hand sides as the decoders compute them. -/
theorem map_tuning (a b : Matrix α) {k : Nat} (hk : k < b.ncols) :
    ((List.range a.ncols).map a.column).map (dot · (b.column k)) =
      (a.transpose.mul b).column k := by
  rw [List.map_map, Matrix.column]
  apply List.map_congr_left
  intro i hi
  have hi : i < a.ncols := List.mem_range.1 hi
  rw [Matrix.entry_mul_dot _ _ hi hk, a.row_transpose hi]
  rfl

/-- The decoders, column by column, from the factor of the normal equations. -/
theorem solve_eq (activities targets : Matrix α) :
    solve activities targets =
      if atMost (peak activities) zero then none
      else
        (factor (activities.normal (penalty activities)).rows).map fun rows =>
          .ofFn activities.ncols targets.ncols fun i k =>
            (substitute rows ((activities.transpose.mul targets).column k))[i]?.getD zero := by
  have htable : ∀ rows : List (List α), ∀ k < targets.ncols,
      (((List.range targets.ncols).map fun k =>
        (substitute rows (((List.range activities.ncols).map activities.column).map
          (dot · (targets.column k)))).toArray).toArray)[k]? =
        some (substitute rows ((activities.transpose.mul targets).column k)).toArray := by
    intro rows k hk
    rw [List.getElem?_toArray, List.getElem?_map, List.getElem?_range hk, Option.map_some,
      map_tuning activities targets hk]
  simp only [solve]
  split
  · rename_i h
    rw [peak, if_pos h]
  · rename_i h
    rw [peak, if_neg h, mapIdx_tuning]
    congr 1
    funext rows
    apply Matrix.ofFn_congr
    intro i hi k hk
    rw [htable rows k hk, Option.bind_some, List.getElem?_toArray]
    rfl

section

variable [Exact α]

attribute [local instance] Exact.commRing

/-- The factor times its transpose is the matrix. -/
theorem lower_mul_transpose {a : Matrix α} (ha : a.transpose = a) {rows : List (List α)}
    (h : Factors a.entry rows) (hlen : rows.length = a.nrows) :
    (lower rows).mul (lower rows).transpose = a := by
  have hc := Matrix.square_of_symmetric ha
  refine Matrix.ext_entry hlen (hlen.trans hc.symm) ?_
  intro i hi j hj
  change i < rows.length at hi
  change j < rows.length at hj
  rw [Matrix.entry_mul (lower rows) (lower rows).transpose rfl hi hj]
  have hsymm : ∀ i < rows.length, ∀ j < rows.length, a.entry i j = a.entry j i := by
    rw [hlen]
    exact Matrix.entry_symmetric ha
  rw [← h.sum_coefficients hsymm hi hj]
  apply Finset.sum_congr rfl
  intro k hk
  have hk : k < rows.length := Finset.mem_range.1 hk
  rw [(lower rows).entry_transpose hk hj, entry_lower rows hi hk, entry_lower rows hj hk]

/-- The substitutions solve the system of the matrix. -/
theorem apply_substitute {a : Matrix α} (ha : a.transpose = a) {rows : List (List α)}
    (h : Factors a.entry rows) (hlen : rows.length = a.nrows) {b : List α}
    (hb : b.length = a.nrows) :
    (substitute rows b).length = a.ncols ∧ a.apply (substitute rows b) = b := by
  have hc := Matrix.square_of_symmetric ha
  have hsymm : ∀ i < rows.length, ∀ j < rows.length, a.entry i j = a.entry j i := by
    rw [hlen]
    exact Matrix.entry_symmetric ha
  obtain ⟨hl, hsolve⟩ := h.substitute_solves hsymm (hb.trans hlen.symm)
  refine ⟨hl.trans (hlen.trans hc.symm), ?_⟩
  apply List.ext_getElem
  · rw [Matrix.apply_length, hb]
  · intro i hi hi'
    rw [Matrix.apply_getElem, a.dot_row, hc, ← hlen, hsolve i (by omega),
      List.getElem?_eq_getElem hi', Option.getD_some]

/-- The substitutions for all columns of a matrix divide it by the factored one. -/
theorem mul_substitute {a b : Matrix α} (ha : a.transpose = a) {rows : List (List α)}
    (h : Factors a.entry rows) (hlen : rows.length = a.nrows) (hb : b.nrows = a.nrows) :
    a.mul (.ofFn a.ncols b.ncols fun i k => (substitute rows (b.column k))[i]?.getD zero) = b := by
  refine Matrix.ext_entry hb.symm rfl ?_
  intro i hi k hk
  change i < a.nrows at hi
  change k < b.ncols at hk
  obtain ⟨hl, hsolve⟩ := apply_substitute ha h hlen ((b.length_column k).trans hb)
  have hi' : i < (a.apply (substitute rows (b.column k))).length := by
    rw [Matrix.apply_length]
    exact hi
  refine (Matrix.entry_mul_dot a (.ofFn _ _ _) hi hk).trans ?_
  rw [Matrix.column_ofFn _ hk hl, ← Matrix.apply_getElem _ _ hi']
  have hentry := b.getElem?_column k (hb ▸ hi)
  rw [← hsolve, List.getElem?_eq_getElem hi'] at hentry
  exact Option.some.inj hentry

end

section

variable [Euclidean α]

attribute [local instance] Exact.commRing Euclidean.linearOrder Euclidean.isStrictOrderedRing

/-- What the factorization finds for a symmetric matrix. -/
theorem factors_of_factor {a : Matrix α} (ha : a.transpose = a) {rows : List (List α)}
    (h : factor a.rows = some rows) : Factors a.entry rows ∧ rows.length = a.nrows := by
  have hbelow := below_rows (Matrix.square_of_symmetric ha)
  obtain ⟨hfactors, hlen⟩ := Factors.nil.of_factorFrom hbelow h
  rw [List.length_nil, Nat.zero_add, a.length_rows] at hlen
  exact ⟨hfactors, hlen⟩

/-- A definite symmetric matrix has a factor. -/
theorem factor_definite {a : Matrix α} (ha : a.transpose = a) (hdef : Definite a.nrows a.entry) :
    ∃ rows, factor a.rows = some rows := by
  have hbelow := below_rows (Matrix.square_of_symmetric ha)
  exact factorFrom_definite hdef (Matrix.entry_symmetric ha) .nil hbelow (by simp)

theorem larger_eq_max (a b : α) : larger a b = max a b := by
  rw [larger]
  split
  · rename_i h
    exact (max_eq_right (le_of_lt h)).symm
  · rename_i h
    exact (max_eq_left (Bool.eq_false_iff.2 h)).symm

theorem foldl_larger (c : α) (xs : List α) :
    c ≤ xs.foldl larger c ∧ (∀ x ∈ xs, x ≤ xs.foldl larger c) ∧
      (xs.foldl larger c = c ∨ xs.foldl larger c ∈ xs) := by
  rw [funext₂ larger_eq_max]
  induction xs generalizing c with
  | nil => simp
  | cons y xs ih =>
    obtain ⟨hc, hxs, hmem⟩ := ih (max c y)
    rw [List.foldl_cons]
    refine ⟨(le_max_left c y).trans hc, ?_, ?_⟩
    · intro x hx
      rcases List.mem_cons.1 hx with rfl | hx
      · exact (le_max_right c x).trans hc
      · exact hxs x hx
    · rcases hmem with heq | hmem
      · rw [heq]
        rcases max_choice c y with h | h
        · exact .inl h
        · exact .inr (by simp [h])
      · exact .inr (List.mem_cons_of_mem _ hmem)

theorem less_peak (a : Matrix α) {i j : Nat} (hi : i < a.nrows) (hj : j < a.ncols) :
    less (peak a) (a.entry i j) = false :=
  (foldl_larger zero a.data.toList).2.1 _ (Matrix.mem_data.2 ⟨i, hi, j, hj, rfl⟩)

theorem peak_attained {a : Matrix α} (h : less zero (peak a) = true) :
    ∃ i < a.nrows, ∃ j < a.ncols, a.entry i j = peak a := by
  rcases (foldl_larger zero a.data.toList).2.2 with heq | hmem
  · rw [peak, heq, Exact.less_irrefl] at h
    cases h
  · exact Matrix.mem_data.1 hmem

/-- The peak is positive exactly when some entry is. -/
theorem peak_positive_iff (a : Matrix α) :
    less zero (peak a) = true ↔
      ∃ i < a.nrows, ∃ j < a.ncols, less zero (a.entry i j) = true := by
  constructor
  · intro h
    obtain ⟨i, hi, j, hj, he⟩ := peak_attained h
    exact ⟨i, hi, j, hj, he ▸ h⟩
  · intro h
    obtain ⟨i, hi, j, hj, h⟩ := h
    have hle : a.entry i j ≤ peak a := less_peak a hi hj
    exact lt_of_lt_of_le h hle

theorem normal_symmetric (a : Matrix α) (c : α) : (a.normal c).transpose = a.normal c := by
  refine Matrix.ext_entry rfl rfl ?_
  intro i hi j hj
  change i < a.ncols at hi
  change j < a.ncols at hj
  rw [(a.normal c).entry_transpose hi hj, a.entry_normal c hi hj, a.entry_normal c hj hi, dot_comm]
  simp only [eq_comm]

theorem normal_definite (a : Matrix α) {c : α} (hc : less zero c = true) :
    Definite a.ncols (a.normal c).entry := by
  refine definite_normal (p := a.nrows) (t := a.entry) hc ?_
  intro i hi j hj
  have hlen : (a.column i).length ≤ a.nrows := by simp
  have hdot : dot (a.column i) (a.column j) =
      ∑ q ∈ Finset.range a.nrows, a.entry q i * a.entry q j := by
    rw [dot_eq_range hlen]
    apply Finset.sum_congr rfl
    intro q hq
    have hq : q < a.nrows := Finset.mem_range.1 hq
    rw [a.getElem?_column i hq, a.getElem?_column j hq, Option.getD_some, Option.getD_some]
  rw [a.entry_normal c hi hj, hdot]
  split
  · rfl
  · exact (add_zero _).symm

theorem ofNat_positive {n : Nat} (h : 0 < n) : less zero (ofNat n : α) = true := by
  induction n with
  | zero => cases h
  | succ n ih =>
    rw [Exact.ofNat_succ]
    rcases Nat.eq_zero_or_pos n with rfl | hn
    · exact (Exact.zero_add (one : α)).symm ▸ Exact.less_zero_one
    · exact add_pos (show (0 : α) < ofNat n from ih hn) one_pos

theorem noise_positive : less zero (noise : α) = true := by
  have hten : (0 : α) < ofNat 10 := ofNat_positive (by decide)
  have hone : (0 : α) < noise * ofNat 10 := by
    rw [noise, ratio, Exact.div_mul_cancel _ hten.ne']
    exact one_pos
  exact pos_of_mul_pos_left hone hten.le

theorem penalty_positive {a : Matrix α} (h : less zero (peak a) = true) :
    less zero (penalty a) = true := by
  obtain ⟨i, hi, -⟩ := (peak_positive_iff a).1 h
  have hrows : (0 : α) < ofNat a.nrows := ofNat_positive (Nat.zero_lt_of_lt hi)
  have hsigma : (0 : α) < noise * peak a := mul_pos noise_positive h
  exact mul_pos (mul_pos hrows hsigma) hsigma

/-- No decoders where no neuron is active. -/
theorem solve_silent {activities : Matrix α} (targets : Matrix α)
    (h : less zero (peak activities) = false) : solve activities targets = none := by
  have hpeak : atMost (peak activities) zero = true := by
    rw [atMost, Bool.or_eq_true, Exact.same_iff]
    exact lt_or_eq_of_le (show peak activities ≤ zero from h)
  rw [solve_eq, if_pos hpeak]

/-- The decoders of active neurons solve the regularized normal equations. -/
theorem solve_active {activities : Matrix α} (targets : Matrix α)
    (h : less zero (peak activities) = true) :
    ∃ decoders, solve activities targets = some decoders ∧ decoders.nrows = activities.ncols ∧
      decoders.ncols = targets.ncols ∧
      (activities.normal (penalty activities)).mul decoders = activities.transpose.mul targets := by
  have hsymm := normal_symmetric activities (penalty activities)
  obtain ⟨rows, hrows⟩ := factor_definite hsymm (normal_definite activities (penalty_positive h))
  obtain ⟨hfactors, hlen⟩ := factors_of_factor hsymm hrows
  have hpeak : ¬atMost (peak activities) zero = true := by
    rw [atMost, Bool.or_eq_true, Exact.same_iff, not_or]
    exact ⟨lt_asymm (show zero < peak activities from h), ne_of_gt h⟩
  rw [solve_eq, if_neg hpeak, hrows, Option.map_some]
  have hmul := mul_substitute (b := activities.transpose.mul targets) hsymm hfactors hlen rfl
  exact ⟨_, rfl, rfl, rfl, hmul⟩

end

end Ridge

end SignalGraph
