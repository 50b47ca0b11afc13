import SignalGraph.Proofs.Simulation.Sizes

namespace SignalGraph

variable {α : Type} [Scalar α]

/-- All that the evaluation of the part at a place uses is there: the values it reads, a matrix for
each of them with a row for each entry of the sum and a column for each value, as many entries of
its own as of its input, and the entries that it selects. -/
def Part.Within (values : Values α) (place size : Nat) : Part α → Prop
  | .source signal => signal.size = size
  | .linear inputs coefficients =>
    inputs.length = coefficients.length ∧ ∀ q ∈ inputs.zip coefficients,
      q.1 < values.size ∧ q.2.nrows = size ∧ q.2.ncols = (values.of q.1).length
  | .direct input _ n => input < values.size ∧ n = size
  | .ensemble input e =>
    input < values.size ∧ e.encoders.ncols = (values.of input).length ∧
      e.decoders.nrows = e.encoders.nrows ∧ e.decoders.ncols = size
  | .feedback .. => place < values.size ∧ (values.of place).length = size
  | .filter input _ =>
    place < values.size ∧ input < values.size ∧ (values.of place).length = size ∧
      (values.of input).length = size
  | .slice input indices =>
    input < values.size ∧ indices.length = size ∧ ∀ k ∈ indices, k < (values.of input).length

/-- All that a feedback state moves along is there, and of the length of the state. -/
def Part.MovesWithin (values : Values α) (place size : Nat) : Part α → Prop
  | .feedback input integrand =>
    place < values.size ∧ (values.of place).length = size ∧
      ∀ j ∈ input :: integrand.toList, j < values.size ∧ (values.of j).length = size
  | _ => True

namespace Circuit

variable {net : Network α} {dt : α} {c : Circuit α} {values : Values α}

namespace Made

/-- What a handle names is there, with the length that the handle tells. -/
theorem read_within (hm : c.Made net dt) (hv : c.Sized values) {h : Handle}
    (hh : net.holds h = true) : h.id < values.size ∧ (values.of h.id).length = h.size := by
  refine ⟨?_, hm.read_length hv hh⟩
  rw [hv.size, hm.size]
  exact Network.holds_lt hh

theorem within (hm : c.Made net dt) (hw : net.WellFormed) (hv : c.Sized values) {i : Nat}
    {r : ObjectRecord α} (hr : net.objects[i]? = some r) :
    ∃ p, c.parts[i]? = some p ∧ p.Within values i r.size := by
  obtain ⟨p, hp, hpart⟩ := hm.part i r hr
  refine ⟨p, hp, ?_⟩
  have hs := hw.sound i r hr
  have hi : i < c.parts.size := (Array.getElem?_eq_some_iff.1 hp).1
  have hplace : i < values.size := hv.size ▸ hi
  have hown : (values.of i).length = r.size := by rw [hv.length i hi, hm.sizes_getD hr]
  have hread := fun h hh => hm.read_within hv (hs.reads h hh).2
  obtain ⟨o, n⟩ := r
  cases o with
  | source signal =>
    cases hpart
    exact hs.fits.1
  | linear inputs coefficients =>
    cases hpart
    refine ⟨by rw [List.length_map, hs.fits.2.1], ?_⟩
    rintro ⟨j, m⟩ hj
    rw [List.zip_map_left] at hj
    obtain ⟨⟨h, _⟩, hq, he⟩ := List.mem_map.1 hj
    cases he
    obtain ⟨hlt, hlen⟩ := hread h (List.of_mem_zip hq).1
    obtain ⟨hrows, hcols⟩ := hs.fits.2.2.2 _ hq
    exact ⟨hlt, hrows, hcols.trans hlen.symm⟩
  | nonlinear input function params =>
    obtain ⟨hlt, hlen⟩ := hread input (List.mem_singleton_self _)
    simp only [Circuit.part] at hpart
    split at hpart
    · cases hpart
      exact ⟨hlt, rfl⟩
    · simp only [Except.map] at hpart
      split at hpart
      · cases hpart
      · rename_i e he
        cases hpart
        obtain ⟨hencoders, hdecoders⟩ := Ensemble.build_shapes he
        exact ⟨hlt, hencoders.trans hlen.symm, hdecoders⟩
  | feedback input integrand =>
    cases hpart
    exact ⟨hplace, hown⟩
  | filter input tau =>
    cases hpart
    obtain ⟨hlt, hlen⟩ := hread input (List.mem_singleton_self _)
    exact ⟨hplace, hlt, hown, hlen.trans hs.fits.1⟩
  | slice input indices =>
    cases hpart
    obtain ⟨hlt, hlen⟩ := hread input (List.mem_singleton_self _)
    exact ⟨hlt, hs.fits.1, fun k hk => hlen.symm ▸ hs.fits.2.2 k hk⟩

theorem movesWithin (hm : c.Made net dt) (hw : net.WellFormed) (hv : c.Sized values) {i : Nat}
    {r : ObjectRecord α} (hr : net.objects[i]? = some r) :
    ∃ p, c.parts[i]? = some p ∧ p.MovesWithin values i r.size := by
  obtain ⟨p, hp, hpart⟩ := hm.part i r hr
  refine ⟨p, hp, ?_⟩
  cases p with
  | feedback a g =>
    have hs := hw.sound i r hr
    have hi : i < c.parts.size := (Array.getElem?_eq_some_iff.1 hp).1
    have hown : (values.of i).length = r.size := by rw [hv.length i hi, hm.sizes_getD hr]
    obtain ⟨input, f, ho, rfl, rfl⟩ := part_eq_feedback hpart
    obtain ⟨o, n⟩ := r
    subst ho
    refine ⟨hv.size ▸ hi, hown, ?_⟩
    intro j hj
    rcases List.mem_cons.1 hj with rfl | hj
    · obtain ⟨hlt, hlen⟩ := hm.read_within hv (hs.reads input (List.mem_singleton_self _)).2
      exact ⟨hlt, hlen.trans hs.fits.1⟩
    · obtain ⟨h, hh, rfl⟩ := Option.map_eq_some_iff.1 (Option.mem_toList.1 hj)
      obtain ⟨hlt, hlen⟩ := hm.read_within hv (hs.integrand h hh)
      exact ⟨hlt, hlen.trans (hs.fits.2 h hh)⟩
  | _ => trivial

theorem foldl_advance_sized (hm : c.Made net dt) (hw : net.WellFormed) (hv : c.Sized values)
    (is : List Nat) : c.Sized (is.foldl c.advance values) := by
  induction is generalizing values with
  | nil => exact hv
  | cons i is ih => exact ih (hm.advance_sized hw hv i)

end Made

end Circuit

end SignalGraph
