import SignalGraph.Proofs.Arithmetic.Blocks
import SignalGraph.Proofs.Simulation.Sizes

namespace SignalGraph

variable {α : Type} [Scalar α]

omit [Scalar α] in
theorem checkOutput_eq {object expected : Nat} {values out : List α}
    (h : checkOutput object expected values = .ok out) : out = values := by
  unfold checkOutput at h
  split at h
  · cases h
    rfl
  · cases h

omit [Scalar α] in
theorem Signal.sample_eq {signal : Signal α} {object : Nat} {t : α} {out : List α}
    (h : signal.sample object t = .ok out) : out = signal.valueAt t := by
  cases signal with
  | constant values =>
    cases h
    rfl
  | timed size function => exact checkOutput_eq h

theorem Kernel.sequential_eq (m : Matrix α) (x acc : List α) :
    sequential m x acc = List.zipWith (· + ·) acc (m.apply x) := by
  rw [sequential, Matrix.apply, List.zipWith_map_right, List.zipWith_comm]

/-- A linear object puts out the sum of its inputs, each times its matrix. -/
theorem linear_output (read : Nat → List α) (is : List Nat) (ms : List (Matrix α)) (size : Nat) :
    (is.zip ms).foldl (fun acc (i, m) => Kernel.sequential m (read i) acc)
        (List.replicate size Scalar.zero) =
      Matrix.weightedSum size (is.map read) ms := by
  rw [Matrix.weightedSum, List.zip_map_left, List.foldl_map]
  refine List.foldl_ext _ _ _ fun acc p _ => ?_
  exact Kernel.sequential_eq p.2 (read p.1) acc

/-- Networks take no time constants below zero, so a part keeps what its filter should. -/
theorem Circuit.decay_eq_kept [Scalar.Exact α] {dt tau : α}
    (h : Scalar.atMost Scalar.zero tau = true) : decay dt tau = BuiltinKind.kept dt tau := by
  rw [decay, BuiltinKind.kept]
  cases hless : Scalar.less Scalar.zero tau with
  | true =>
    have hne : ¬Scalar.same tau Scalar.zero = true := by
      rw [Scalar.Exact.same_iff]
      exact Scalar.Exact.ne_zero_of_pos hless
    rw [if_pos rfl, if_neg hne]
  | false =>
    rw [Scalar.atMost, hless, Bool.false_or, Scalar.Exact.same_iff] at h
    rw [if_neg Bool.false_ne_true, if_pos ((Scalar.Exact.same_iff tau _).2 h.symm)]

/-- The part of a request puts out the value that its kind has. -/
theorem BuiltinKind.output_row_of_asks [Scalar.Exact α] {kind : BuiltinKind α}
    {config : ResolvedConfig α} {inputs : List Handle} {q : Request α}
    (hq : kind.Asks config inputs q) {dt t decay : α} {place size : Nat} {p : Part α}
    {own out : List α} {read : Nat → List α}
    (hdirect : ∀ function n name type, kind = .decode function n →
      config.text "neuron_type" = .ok name → NeuronType.ofText? name = .ok type → type = .direct)
    (hdecay : ∀ tau, kind = .filter → config.scalar "synapse" = .ok tau →
      kept dt tau = decay)
    (hsize : kind = .bundle → size = (inputs.map Handle.size).sum)
    (hfits : q.object.Fits size) (hread : ∀ h ∈ q.object.reads, (read h.id).length = h.size)
    (hp : Circuit.part dt place ⟨q.object, size⟩ = .ok p)
    (ho : p.output Kernel.sequential t place size own read = .ok out) :
    out = kind.row size t decay own (inputs.map fun h => read h.id) := by
  cases hq with
  | stimulus signal =>
    cases hp
    exact Signal.sample_eq ho
  | transform matrices =>
    cases hp
    cases ho
    rw [linear_output, List.map_map]
    rfl
  | decode function n input rest name params hname htype =>
    have htype' : params.neuronType = .direct := hdirect function n name _ rfl hname htype
    simp only [Circuit.part, Request.object, htype'] at hp
    cases hp
    exact checkOutput_eq ho
  | slice indices input rest =>
    cases hp
    cases ho
    refine List.map_congr_left fun i _ => ?_
    simp [Array.getD_eq_getD_getElem?, List.getD_eq_getElem?_getD]
  | bundle =>
    cases hp
    cases ho
    have hlengths : inputs.map Handle.size = (inputs.map fun h => read h.id).map List.length := by
      rw [List.map_map]
      exact List.map_congr_left fun h hh => (hread h hh).symm
    have htotal : Shape.wordTotal (inputs.map Handle.size) = size := by
      obtain ⟨hne, -, -, hall⟩ := hfits
      obtain ⟨h, rest, rfl⟩ := List.exists_cons_of_ne_nil hne
      exact (hall _ List.mem_cons_self).1
    rw [linear_output, List.map_map, BuiltinKind.bundleMatrices, htotal, hlengths]
    exact Matrix.weightedSum_bundleBlocks ((hsize rfl).trans (congrArg List.sum hlengths))
  | filter tau input rest htau =>
    cases hp
    cases ho
    rw [Circuit.decay_eq_kept hfits.2.1, hdecay tau rfl htau]
    refine congrArg₂ (fun f => List.zipWith f own) ?_ rfl
    funext y x
    rw [Scalar.Exact.mul_comm y, Scalar.Exact.mul_comm x]

end SignalGraph
