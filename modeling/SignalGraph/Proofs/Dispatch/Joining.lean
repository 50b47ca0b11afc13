import SignalGraph.Proofs.Dispatch.Axes

namespace SignalGraph

open Build

variable {α : Type} [Scalar α]

/-- Both ways to stack arrays lead to the array that has them at the places of the new axis. -/
theorem Builtin.stackAlong_eq_ok {first r : Fold} {rest : List Fold} {axis : Nat}
    (haxis : axis ≤ first.rank) : stackAlong (first :: rest) axis = .ok r ↔
      Shape.addressable (first.shape.insertIdx axis (rest.length + 1)) = true ∧
        NDArray.Stacked (first :: rest) first.shape axis r := by
  unfold stackAlong
  split
  · rename_i h
    subst h
    exact NDArray.stack_eq_ok
  · exact NDArray.insertAxis_concatenate haxis

/-- A stack that the parameters name the axis of. -/
theorem Builtin.stack_run {first : Fold} {rest : List Fold} {axis : Nat} {a : Int}
    {params : Params α} (hp : params.get? "axis" = some (.int a)) (haxis : axis ≤ first.rank)
    (ha : a = axis ∨ a = (axis : Int) - (first.rank + 1)) {g g' : Graph α} {x : Operand α} :
    (Registry.builtin.dispatch .function "stack" ((first :: rest).map .fold) params).run g =
        .ok (x, g') ↔
      g' = g ∧ Shape.addressable (first.shape.insertIdx axis (rest.length + 1)) = true ∧
        ∃ r, x = .fold r ∧ NDArray.Stacked (first :: rest) first.shape axis r := by
  have hsigned : Shape.signedAxis a (first.rank + 1) = .ok axis :=
    Shape.signedAxis_eq_ok.2 ⟨Nat.lt_succ_of_le haxis, by push_cast; exact ha⟩
  rw [(stack_reads first rest).answered hp hsigned, map_ok]
  simp only [ofShape_ok, stackAlong_eq_ok haxis]
  constructor
  · rintro ⟨r, ⟨⟨haddress, hr⟩, rfl⟩, rfl⟩
    exact ⟨rfl, haddress, r, rfl, hr⟩
  · rintro ⟨rfl, haddress, r, rfl, hr⟩
    exact ⟨r, ⟨⟨haddress, hr⟩, rfl⟩, rfl⟩

/-- Joining loses and reorders nothing. Arrays are laid one behind the other along an axis of the first
when their shapes differ there only, and slicing at the running sums of their lengths gives each of
them back. Arrays are stacked along a new axis, which may be counted from the end, when they have one
shape, and each of them is what lies at its place of the new axis. -/
theorem joined_folds (first : Fold) (rest : List Fold) :
    (∀ axis, (∃ r, NDArray.concatenate (first :: rest) axis = .ok r) ↔
      axis < first.rank ∧
      (∀ f ∈ rest, f.rank = first.rank ∧
        ∀ k, k ≠ axis → f.axisLength k = first.axisLength k) ∧
      Shape.addressable (first.shape.set axis
        (Shape.total ((first :: rest).map (NDArray.axisLength · axis)))) = true) ∧
    (∀ axis r, NDArray.concatenate (first :: rest) axis = .ok r →
      ∀ before f after, first :: rest = before ++ f :: after →
        r.sliceAxis axis (Shape.total (before.map (NDArray.axisLength · axis)))
          (Shape.total (before.map (NDArray.axisLength · axis)) + f.axisLength axis) = .ok f) ∧
    ∀ (params : Params α) (axis : Nat) (a : Int), params.get? "axis" = some (.int a) →
      axis ≤ first.rank → (a = axis ∨ a = (axis : Int) - (first.rank + 1)) → ∀ g : Graph α,
      ((∃ x, (Registry.builtin.dispatch .function "stack" ((first :: rest).map .fold) params).run g =
          .ok x) ↔
        (∀ f ∈ rest, f.shape = first.shape) ∧
          Shape.addressable (first.shape.insertIdx axis (rest.length + 1)) = true) ∧
      ∀ x g', (Registry.builtin.dispatch .function "stack" ((first :: rest).map .fold) params).run g =
          .ok (x, g') →
        g' = g ∧ ∃ r, x = .fold r ∧ r.shape = first.shape.insertIdx axis (rest.length + 1) ∧
          ∀ i f, (first :: rest)[i]? = some f → r.indexAxis axis i = .ok f := by
  refine ⟨fun axis => ?_, fun axis r hr before f after hsplit =>
    NDArray.sliceAxis_concatenate hr hsplit, fun params axis a hp haxis ha g => ?_⟩
  · simp only [NDArray.concatenate_eq_ok, NDArray.joinable_iff_getD, List.forall_mem_cons]
    constructor
    · rintro ⟨r, haxis, ⟨-, hall⟩, haddress, -⟩
      exact ⟨haxis, hall, haddress⟩
    · rintro ⟨haxis, hall, haddress⟩
      exact ⟨_, haxis, ⟨⟨trivial, fun _ _ => trivial⟩, hall⟩, haddress, rfl⟩
  · simp only [Prod.exists, Builtin.stack_run hp haxis ha]
    refine ⟨⟨?_, ?_⟩, ?_⟩
    · rintro ⟨_, _, -, haddress, r, -, hr⟩
      exact ⟨fun f hf => hr.shapes f (List.mem_cons_of_mem _ hf), haddress⟩
    · rintro ⟨hall, haddress⟩
      have hall : ∀ f ∈ first :: rest, f.shape = first.shape := List.forall_mem_cons.2 ⟨rfl, hall⟩
      exact ⟨_, g, rfl, haddress, _, rfl, NDArray.stacked_widened haxis hall⟩
    · rintro _ _ ⟨rfl, -, r, rfl, hr⟩
      exact ⟨rfl, r, rfl, hr.shape, fun i f hi => hr.indexAxis haxis hi⟩

/-- A column of nodes. -/
def oneColumn : Fold := ⟨[2, 1], #v[⟨0⟩, ⟨3⟩]⟩

/-- Two columns of other nodes. -/
def twoColumns : Fold := ⟨[2, 2], #v[⟨1⟩, ⟨2⟩, ⟨4⟩, ⟨5⟩]⟩

/-- The columns side by side, and the column twice along a new last axis. -/
theorem columns_joined :
    (∃ r, NDArray.concatenate [oneColumn, twoColumns] 1 = .ok r ∧
      r.toList = [⟨0⟩, ⟨1⟩, ⟨2⟩, ⟨3⟩, ⟨4⟩, ⟨5⟩] ∧ r.sliceAxis 1 0 1 = .ok oneColumn ∧
      r.sliceAxis 1 1 3 = .ok twoColumns) ∧
    ∃ r, (Registry.builtin.dispatch .function "stack" [.fold oneColumn, .fold oneColumn]
        (Operation.axisParams (some (-1)))).run (Graph.empty : Graph ℚ) = .ok (.fold r, .empty) ∧
      r.shape = [2, 1, 2] ∧ r.indexAxis 2 1 = .ok oneColumn := by
  obtain ⟨-, hslices, -⟩ := joined_folds (α := ℚ) oneColumn [twoColumns]
  obtain ⟨-, -, hstack⟩ := joined_folds (α := ℚ) oneColumn [oneColumn]
  constructor
  · have hr : NDArray.concatenate [oneColumn, twoColumns] 1 =
        .ok ⟨[2, 3], #v[⟨0⟩, ⟨1⟩, ⟨2⟩, ⟨3⟩, ⟨4⟩, ⟨5⟩]⟩ := by rfl
    exact ⟨_, hr, rfl, hslices 1 _ hr [] oneColumn [twoColumns] rfl,
      hslices 1 _ hr [oneColumn] twoColumns [] rfl⟩
  · obtain ⟨hruns, hstacked⟩ :=
      hstack (Operation.axisParams (some (-1))) 2 (-1) rfl (by decide) (by decide) .empty
    obtain ⟨⟨x, g'⟩, hx⟩ := hruns.2 (by decide)
    obtain ⟨rfl, r, rfl, hshape, hparts⟩ := hstacked x g' hx
    exact ⟨r, hx, hshape, hparts 1 oneColumn rfl⟩

/-- An array without nodes, one axis of which is long. -/
def hollow : Fold := ⟨[0, 2 ^ 62], ⟨#[], by decide⟩⟩

/-- Arrays that differ nowhere are not laid behind each other along their long axis. -/
theorem hollow_concatenation_refused :
    NDArray.concatenate [hollow, hollow] 1 = .error (.invalid (.storage .overflow)) ∧
    ¬((∃ r, NDArray.concatenate [hollow, hollow] 1 = .ok r) ↔
      1 < hollow.rank ∧ ∀ f ∈ [hollow], f.rank = hollow.rank ∧
        ∀ k, k ≠ 1 → f.axisLength k = hollow.axisLength k) := by
  have hrefused : NDArray.concatenate [hollow, hollow] 1 =
      .error (.invalid (.storage .overflow)) := by rfl
  refine ⟨hrefused, fun h => ?_⟩
  obtain ⟨r, hr⟩ := h.2 ⟨by decide, by simp⟩
  cases hrefused.symm.trans hr

end SignalGraph
