import SignalGraph.Proofs.Arithmetic.Real
import SignalGraph.Proofs.Ensemble.Decoders

namespace SignalGraph

open Scalar

variable {α : Type} [Scalar α]

/-- The input current of a neuron at a point of the unit ball. -/
def Neuron.current (n : Neuron α) (p : List α) : α := n.gain * dot n.encoder p + n.bias

theorem Population.getElem_neurons (u : Population α) {j : Nat} (hj : j < u.neurons.length)
    (hj' : j < u.encoders.nrows) :
    u.neurons[j] = ⟨u.encoders.row j, u.gain[j], u.bias[j]⟩ := by
  simp [neurons]

/-- The currents and activities at points of the unit ball, computed for all of them at once, are the
currents and rates that the ensemble answers with at the same points of its own ball. -/
structure Ensemble.Consistent (e : Ensemble α) (points : Matrix α) : Prop where
  currents : (e.currentsAt points).rows = points.rows.map fun p => e.currents (p.map (· * e.radius))
  rates : (e.activities points).rows = points.rows.map fun p => e.rates (p.map (· * e.radius))

section

variable [Exact α]

/-- All points at once, a row of currents has those of the neurons at its point. -/
theorem Population.row_currentsAt (u : Population α) (points : Matrix α) {i : Nat}
    (hi : i < points.nrows) :
    (u.currentsAt points).row i = u.neurons.map (·.current (points.row i)) := by
  apply List.ext_getElem
  · simp [Matrix.row, currentsAt, Matrix.zipRows, Matrix.mul, Matrix.ofLists, Matrix.ofFn,
      Matrix.transpose, neurons]
  · intro j hleft hright
    have hj : j < u.encoders.nrows := by simpa [neurons] using hright
    let products := points.mul u.encoders.transpose
    have hproduct : products.entry i j = dot (u.encoders.row j) (points.row i) := by
      rw [Matrix.entry_mul_dot _ _ hi hj, Matrix.column_transpose _ hj, dot_comm]
    rw [List.getElem_map, u.getElem_neurons _ hj]
    calc ((u.currentsAt points).row i)[j]
        = (u.currentsAt points).entry i j := by simp [Matrix.row]
      _ = (products.zipRows (· * ·) u.gain).entry i j + u.bias[j] :=
        Matrix.entry_zipRows _ (products.zipRows (· * ·) u.gain) u.bias hi hj hj
      _ = products.entry i j * u.gain[j] + u.bias[j] :=
        congrArg (· + u.bias[j]) (Matrix.entry_zipRows _ products u.gain hi hj hj)
      _ = u.gain[j] * dot (u.encoders.row j) (points.row i) + u.bias[j] := by
        rw [hproduct, Exact.mul_comm]

namespace Ensemble

/-- An ensemble answers to an input with the currents of its neurons there, in units of the radius. -/
theorem currents_eq (e : Ensemble α) (x : List α) :
    e.currents x = e.neurons.map (·.current (x.map (· / e.radius))) := by
  apply List.ext_getElem
  · simp [currents, Population.neurons]
  · intro j hleft hright
    have hj : j < e.encoders.nrows := by simpa [Population.neurons] using hright
    rw [List.getElem_map, e.getElem_neurons _ hj, Neuron.current, Exact.mul_comm]
    simp [currents, Matrix.rows]

/-- Scaling to the radius of an ensemble and back changes nothing. -/
theorem unscale (radius : α) (hr : less zero radius = true) (p : List α) :
    (p.map (· * radius)).map (· / radius) = p := by
  have hne := Exact.ne_zero_of_pos hr
  have hback : ∀ x : α, x * radius / radius = x := by
    intro x
    calc x * radius / radius = x * radius * (one / radius) := (Exact.mul_one_div _ hne).symm
      _ = x * (one / radius * radius) := by rw [Exact.mul_assoc, Exact.mul_comm radius]
      _ = x := by rw [Exact.div_mul_cancel one hne, Exact.mul_one]
  rw [List.map_map]
  exact (List.map_congr_left fun x _ => hback x).trans (List.map_id p)

theorem consistent (e : Ensemble α) (hr : less zero e.radius = true) (points : Matrix α) :
    e.Consistent points := by
  have hcurrents : (e.currentsAt points).rows =
      points.rows.map fun p => e.currents (p.map (· * e.radius)) := by
    rw [Matrix.rows, Matrix.rows, List.map_map]
    apply List.map_congr_left
    intro i hi
    calc (e.currentsAt points).row i
        = e.neurons.map (·.current (points.row i)) := e.row_currentsAt points (List.mem_range.1 hi)
      _ = e.currents ((points.row i).map (· * e.radius)) := by
        rw [currents_eq, unscale e.radius hr]
  refine ⟨hcurrents, ?_⟩
  rw [Population.activities, Matrix.rows_map, hcurrents, List.map_map]
  rfl

end Ensemble

end

/-- Decoders that solve the ridge problem of activities and targets, a tenth of the largest activity
being the noise. -/
structure Ridge.Solves (activities targets decoders : Matrix α) : Prop where
  nrows : decoders.nrows = activities.ncols
  ncols : decoders.ncols = targets.ncols
  normal : ∃ largest : α,
    (∃ i < activities.nrows, ∃ j < activities.ncols, activities.entry i j = largest) ∧
    (∀ i < activities.nrows, ∀ j < activities.ncols,
      less largest (activities.entry i j) = false) ∧
    ((activities.transpose.mul activities).addDiagonal
      (ofNat activities.nrows * (ratio 1 10 * largest) * (ratio 1 10 * largest))).mul decoders =
        activities.transpose.mul targets

/-- A lower triangle with a positive diagonal whose product with its transpose is a matrix. -/
structure Ridge.LowerFactor (a l : Matrix α) : Prop where
  nrows : l.nrows = a.nrows
  ncols : l.ncols = a.nrows
  above : ∀ i < a.nrows, ∀ j < a.nrows, i < j → l.entry i j = zero
  diagonal : ∀ i < a.nrows, less zero (l.entry i i) = true
  product : l.mul l.transpose = a

section

variable [Euclidean α]

theorem Ridge.solve_eq_none_iff (activities targets : Matrix α) :
    solve activities targets = none ↔
      ∀ i < activities.nrows, ∀ j < activities.ncols,
        less zero (activities.entry i j) = false := by
  constructor
  · intro h i hi j hj
    refine Bool.eq_false_iff.2 fun he => ?_
    obtain ⟨decoders, hd, -⟩ := solve_active targets ((peak_positive_iff _).2 ⟨i, hi, j, hj, he⟩)
    rw [h] at hd
    cases hd
  · intro h
    apply solve_silent
    refine Bool.eq_false_iff.2 fun hp => ?_
    obtain ⟨i, hi, j, hj, he⟩ := (peak_positive_iff _).1 hp
    rw [h i hi j hj] at he
    cases he

theorem Ridge.solve_solves {activities targets decoders : Matrix α}
    (h : solve activities targets = some decoders) : Solves activities targets decoders := by
  have hpeak : less zero (peak activities) = true := by
    refine Bool.of_not_eq_false fun hp => ?_
    rw [solve_silent targets hp] at h
    cases h
  obtain ⟨found, hfound, hrows, hcols, hnormal⟩ := solve_active targets hpeak
  rw [h] at hfound
  cases hfound
  exact ⟨hrows, hcols, peak activities, peak_attained hpeak,
    fun i hi j hj => less_peak activities hi hj, hnormal⟩

theorem Ridge.factor_lower {a : Matrix α} (ha : a.transpose = a) {rows : List (List α)}
    (h : factor a.rows = some rows) : LowerFactor a (lower rows) := by
  obtain ⟨hfactors, hlen⟩ := factors_of_factor ha h
  refine ⟨hlen, hlen, ?_, ?_, lower_mul_transpose ha hfactors hlen⟩
  · intro i hi j hj hij
    rw [entry_lower rows (hlen ▸ hi) (hlen ▸ hj)]
    exact hfactors.staircase.coefficient_eq_zero (by omega)
  · intro i hi
    rw [entry_lower rows (hlen ▸ hi) (hlen ▸ hi)]
    exact hfactors.staircase.coefficient_pos (hlen ▸ hi)

/-- The decoders of an ensemble solve the ridge problem of its rates at the evaluation points: there
are such decoders exactly when some rate is positive, the factorization and the substitutions that
they come from do what they should for any symmetric matrix, and the rates that were used are those
that the ensemble answers with, whatever the function from currents to rates. -/
theorem decoders_solve_ridge :
    (∀ activities targets : Matrix α,
      (Ridge.solve activities targets = none ↔
        ∀ i < activities.nrows, ∀ j < activities.ncols,
          less zero (activities.entry i j) = false) ∧
      ∀ decoders, Ridge.solve activities targets = some decoders →
        Ridge.Solves activities targets decoders) ∧
    (∀ (a : Matrix α) (rows : List (List α)), a.transpose = a → Ridge.factor a.rows = some rows →
      Ridge.LowerFactor a (Ridge.lower rows) ∧
      ∀ b : List α, b.length = a.nrows →
        (Ridge.substitute rows b).length = a.ncols ∧ a.apply (Ridge.substitute rows b) = b) ∧
    (∀ (e : Ensemble α) (points : Matrix α), less zero e.radius = true → e.Consistent points) ∧
    ∀ (function : VectorFunction α) (inputSize size : Nat) (params : NonlinearParams α)
      (object : Nat), params.neuronCount ≠ 0 → inputSize ≠ 0 →
      ∃ (u : Population α) (points : Matrix α),
        (u.encoders.nrows = params.neuronCount ∧ u.encoders.ncols = inputSize ∧
          points.nrows = evaluationPoints ∧ points.ncols = inputSize) ∧
        Ensemble.build function inputSize size params object =
          (Ensemble.targets function params.radius size object points).bind fun wanted =>
            (Ridge.solve (u.activities points) wanted).elim
              (.error (.simulationFailed (.silentEnsemble object)))
              fun decoders => .ok ⟨u, params.radius, decoders⟩ := by
  refine ⟨?_, ?_, ?_, ?_⟩
  · intro activities targets
    exact ⟨Ridge.solve_eq_none_iff activities targets, fun _ h => Ridge.solve_solves h⟩
  · intro a rows ha h
    obtain ⟨hfactors, hlen⟩ := Ridge.factors_of_factor ha h
    exact ⟨Ridge.factor_lower ha h, fun b hb => Ridge.apply_substitute ha hfactors hlen hb⟩
  · intro e points hr
    exact e.consistent hr points
  · intro function inputSize size params object hcount hsize
    exact Ensemble.build_eq function size params object hcount hsize

end

/-- Two rows of two numbers. -/
def unevenPair : Matrix α :=
  .ofFn 2 2 fun i j => if i = 0 ∧ j = 0 then ofNat 4 else if i = 1 ∧ j = 1 then ofNat 3 else ofNat 2

theorem unevenPair_symmetric : (unevenPair : Matrix α).transpose = unevenPair := by
  refine Matrix.ext_entry rfl rfl ?_
  intro i hi j hj
  change i < 2 at hi
  change j < 2 at hj
  rw [(unevenPair : Matrix α).entry_transpose hi hj, unevenPair, Matrix.entry_ofFn _ hi hj,
    Matrix.entry_ofFn _ hj hi]
  simp only [and_comm]

theorem unevenPair_rows :
    (unevenPair : Matrix α).rows = [[ofNat 4, ofNat 2], [ofNat 2, ofNat 3]] := by
  change [(unevenPair : Matrix α).row 0, (unevenPair : Matrix α).row 1] = _
  rw [unevenPair, Matrix.row_ofFn _ (by decide), Matrix.row_ofFn _ (by decide)]
  rfl

/-- Its factor has the square root of two. -/
theorem unevenPair_factor :
    Ridge.factor [[ofNat 4, ofNat 2], [ofNat 2, ofNat 3]] = some [[2], [1, Real.sqrt 2]] := by
  have hroot : Real.sqrt 4 = 2 := by
    rw [show (4 : ℝ) = 2 ^ 2 by norm_num]
    exact Real.sqrt_sq (by norm_num)
  norm_num [Ridge.factor, Ridge.factorFrom, Ridge.extendRow, subProducts, real_less, real_zero,
    real_sqrt, real_ofNat, hroot]

/-- One neuron's rates at two points. -/
def twoRates : Matrix α := .ofFn 2 1 fun i _ => ofNat i

theorem twoRates_entry : (twoRates : Matrix α).entry 1 0 = one :=
  Matrix.entry_ofFn _ (by decide) (by decide)

/-- Two neurons of opposite directions, in a ball of radius two. -/
def wideBall : Ensemble α :=
  ⟨⟨.ofLists 2 1 [[one], [-one]], #v[ofNat 3, one], #v[one, ofNat 2]⟩, ofNat 2, .zeros 2 1⟩

theorem unevenPair_solved :
    (∃ decoders : Matrix ℝ, Ridge.solve twoRates twoRates = some decoders ∧
      Ridge.Solves twoRates twoRates decoders) ∧
    Ridge.LowerFactor unevenPair (Ridge.lower [[2], [1, Real.sqrt 2]]) ∧
    unevenPair.apply (Ridge.substitute [[2], [1, Real.sqrt 2]] [6, 5]) = [6, 5] ∧
    (wideBall : Ensemble ℝ).Consistent twoRates ∧
    ∃ (u : Population ℝ) (points : Matrix ℝ),
      (u.encoders.nrows = 20 ∧ u.encoders.ncols = 1 ∧ points.nrows = evaluationPoints ∧
        points.ncols = 1) ∧
      Ensemble.build (fun x => x) 1 1 (⟨20, 2, .lifRate, 7⟩ : NonlinearParams ℝ) 0 =
        (Ensemble.targets (fun x => x) 2 1 0 points).bind fun wanted =>
          (Ridge.solve (u.activities points) wanted).elim
            (.error (.simulationFailed (.silentEnsemble 0)))
            fun decoders => .ok ⟨u, 2, decoders⟩ := by
  obtain ⟨hsolve, hfactor, hrates, hbuild⟩ := decoders_solve_ridge (α := ℝ)
  obtain ⟨hnone, hsome⟩ := hsolve twoRates twoRates
  obtain ⟨hlower, hsubstitute⟩ := hfactor unevenPair _ unevenPair_symmetric
    ((congrArg Ridge.factor unevenPair_rows).trans unevenPair_factor)
  refine ⟨?_, hlower, (hsubstitute [6, 5] rfl).2, ?_, ?_⟩
  · cases h : Ridge.solve (twoRates : Matrix ℝ) twoRates with
    | none =>
      have hsilent := hnone.1 h 1 (by decide) 0 (by decide)
      rw [twoRates_entry, Exact.less_zero_one] at hsilent
      cases hsilent
    | some decoders => exact ⟨decoders, rfl, hsome decoders h⟩
  · have hradius : less zero (wideBall : Ensemble ℝ).radius = true := by
      rw [real_less, real_zero]
      exact two_pos
    exact hrates wideBall twoRates hradius
  · exact hbuild (fun x => x) 1 1 ⟨20, 2, .lifRate, 7⟩ 0 (by decide) (by decide)

end SignalGraph
