import Mathlib.Data.List.Basic
import SignalGraph.Simulation.Simulator

namespace SignalGraph

variable {α : Type} [Scalar α]

/-- The output of a part of `size` values: `own` is the value that it had, `read` gives the values
of the others. -/
def Part.output (kernel : Kernel α) (t : α) (place size : Nat) (own : List α)
    (read : Nat → List α) : Part α → Except NetworkError (List α)
  | .source signal => signal.sample place t
  | .linear inputs coefficients =>
    .ok ((inputs.zip coefficients).foldl (fun acc (i, m) => kernel m (read i) acc)
      (List.replicate size Scalar.zero))
  | .direct input function n => checkOutput place n (function (read input))
  | .ensemble input e => .ok (e.evaluate (read input))
  | .feedback .. => .ok own
  | .filter input decay =>
    .ok (List.zipWith (fun old new => old * decay + new * (Scalar.one - decay)) own (read input))
  | .slice input indices => .ok (indices.map fun i => (read input).toArray.getD i Scalar.zero)

/-- The output depends on the values of the step inputs only. -/
theorem Part.output_congr {kernel : Kernel α} {t : α} {place size : Nat} {own : List α}
    {read read' : Nat → List α} {p : Part α} (h : ∀ j ∈ p.stepInputs, read j = read' j) :
    p.output kernel t place size own read = p.output kernel t place size own read' := by
  cases p with
  | source signal => rfl
  | linear inputs coefficients =>
    refine congrArg Except.ok (List.foldl_ext _ _ _ ?_)
    rintro acc ⟨i, m⟩ hi
    change kernel m (read i) acc = kernel m (read' i) acc
    rw [h i (List.of_mem_zip hi).1]
  | direct input function n => simp only [output, h input (List.mem_singleton_self input)]
  | ensemble input e => simp only [output, h input (List.mem_singleton_self input)]
  | feedback input integrand => rfl
  | filter input decay => simp only [output, h input (List.mem_singleton_self input)]
  | slice input indices => simp only [output, h input (List.mem_singleton_self input)]

namespace Circuit

variable (c : Circuit α)

theorem evaluate_eq_output {kernel : Kernel α} {t : α} {values : Values α} {i : Nat} {p : Part α}
    (h : c.parts[i]? = some p) :
    c.evaluate kernel t values i =
      p.output kernel t i (c.sizes.getD i 0) (values.of i) values.of := by
  cases p <;> simp [evaluate, h, Part.output]

/-- New values that each part puts out from its old value and from the new values of the others. -/
structure Settles (kernel : Kernel α) (t : α) (old new : Values α) : Prop where
  size : new.size = c.parts.size
  output : ∀ i (p : Part α), c.parts[i]? = some p →
    p.output kernel t i (c.sizes.getD i 0) (old.of i) new.of = .ok (new.of i)

/-- Every part reads parts before it. -/
def Forward : Prop := ∀ i (p : Part α), c.parts[i]? = some p → ∀ j ∈ p.stepInputs, j < i

end Circuit

omit [Scalar α] in
theorem Values.ext {v w : Values α} (hs : v.size = w.size) (h : ∀ i < v.size, v.of i = w.of i) :
    v = w := by
  apply Array.ext hs
  intro i hv hw
  simpa [Values.of, Array.getD, hv, hw] using h i hv

omit [Scalar α] in
theorem Values.of_set {v : Values α} {i : Nat} {x : List α} (h : i < v.size) (j : Nat) :
    Values.of (v.setIfInBounds i x) j = if j = i then x else v.of j := by
  simp only [Values.of, Array.getD_eq_getD_getElem?, Array.getElem?_setIfInBounds]
  by_cases hj : j = i
  · simp [hj, h]
  · simp [hj, Ne.symm hj]

end SignalGraph
