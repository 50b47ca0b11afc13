import Mathlib.Data.Set.Function
import SignalGraph.Proofs.Arithmetic.Rational
import SignalGraph.Proofs.Simulation.Compile

namespace SignalGraph

/-- Mixing a seed, in natural numbers: the next place times the constant, both modulo 2 ^ 64. -/
theorem mixSeed_toNat (seed object : UInt64) :
    (mixSeed seed object).toNat =
      seed.toNat ^^^ ((object.toNat + 1) % 2 ^ 64 * 0x9E3779B97F4A7C15 % 2 ^ 64) := by
  rw [mixSeed, UInt64.toNat_xor, UInt64.toNat_mul, UInt64.toNat_add]
  rfl

/-- The place that a generator seed was mixed with. -/
def unmixSeed (seed mixed : UInt64) : UInt64 := (seed ^^^ mixed) * 0xF1DE83E19937733D - 1

theorem unmixSeed_mixSeed (seed : UInt64) :
    Function.LeftInverse (unmixSeed seed) (mixSeed seed) := by
  intro object
  -- Taking the seed out again leaves a product with a unit of the words, which the inverse undoes.
  have hunit : (0x9E3779B97F4A7C15 : UInt64) * 0xF1DE83E19937733D = 1 := by decide
  calc unmixSeed seed (mixSeed seed object)
      = (object + 1) * 0x9E3779B97F4A7C15 * 0xF1DE83E19937733D - 1 := by
        rw [unmixSeed, mixSeed, ← UInt64.xor_assoc, UInt64.xor_self, UInt64.zero_xor]
    _ = object + 1 - 1 := by rw [UInt64.mul_assoc, hunit, UInt64.mul_one]
    _ = object := UInt64.add_sub_cancel object 1

theorem mixSeed_injective (seed : UInt64) : Function.Injective (mixSeed seed) :=
  (unmixSeed_mixSeed seed).injective

/-- The ensemble that is drawn from the generator of a seed, the seed taken as it is. -/
def Ensemble.seeded {α : Type} [Scalar α] (generatorSeed : UInt64) (count : Nat) (radius : α)
    (function : VectorFunction α) (inputSize size object : Nat) :
    Except NetworkError (Ensemble α) := do
  if count = 0 || inputSize = 0 then
    throw (.invalidParameters (.emptyEnsemble object))
  let (population, points) := (drawPopulation count inputSize (.ofSeed generatorSeed)).1
  let wanted ← targets function radius size object points
  match Ridge.solve (population.activities points) wanted with
  | some decoders => return ⟨population, radius, decoders⟩
  | none => throw (.simulationFailed (.silentEnsemble object))

/-- The configured seed is used for nothing but the seed of the generator. -/
theorem Ensemble.build_eq_seeded {α : Type} [Scalar α] (function : VectorFunction α)
    (inputSize size : Nat) (params : NonlinearParams α) (object : Nat) :
    build function inputSize size params object =
      seeded (mixSeed params.seed (.ofNat object)) params.neuronCount params.radius function
        inputSize size object := rfl

/-- An object of a network that is computed by a population of neurons, at a place of 64 bits. -/
structure Network.Population {α : Type} (net : Network α) where
  place : UInt64
  input : Handle
  function : VectorFunction α
  params : NonlinearParams α
  size : Nat
  object : net.objects[place.toNat]? = some ⟨.nonlinear input function params, size⟩
  rate : params.neuronType = .lifRate

namespace Network.Population

variable {α : Type} {net : Network α}

/-- The seed of the generator that the ensemble of a population is drawn from. -/
def generatorSeed (u : net.Population) : UInt64 := mixSeed u.params.seed u.place

/-- A network has one population at a place. -/
theorem eq_of_place {u v : net.Population} (h : u.place = v.place) : u = v := by
  obtain ⟨place, input, function, params, size, hu, hrate⟩ := u
  obtain ⟨place', input', function', params', size', hv, hrate'⟩ := v
  obtain rfl : place = place' := h
  -- What is at the place decides all the other fields.
  cases hu.symm.trans hv
  rfl

/-- The objects before a population, its own and those after it. -/
theorem objects_eq (u : net.Population) :
    net.objects.toList = net.objects.toList.take u.place.toNat ++
      ⟨.nonlinear u.input u.function u.params, u.size⟩ ::
        net.objects.toList.drop (u.place.toNat + 1) := by
  have hu := u.object
  rw [← Array.getElem?_toList] at hu
  obtain ⟨hlt, hget⟩ := List.getElem?_eq_some_iff.1 hu
  rw [← hget, ← List.drop_eq_getElem_cons hlt, List.take_append_drop]

variable [Scalar α]

/-- The ensemble of a population, drawn from the generator of a seed. -/
def ensemble (u : net.Population) (generatorSeed : UInt64) : Except NetworkError (Ensemble α) :=
  Ensemble.seeded generatorSeed u.params.neuronCount u.params.radius u.function u.input.size u.size
    u.place.toNat

/-- The parts of all objects in their order, with the ensemble of one population drawn from the
generator of a seed. -/
def partsWith (u : net.Population) (dt : α) (generatorSeed : UInt64) :
    Except NetworkError (List (Part α)) := do
  let before ← Circuit.partsFrom dt 0 (net.objects.toList.take u.place.toNat)
  let e ← u.ensemble generatorSeed
  let after ← Circuit.partsFrom dt (u.place.toNat + 1)
    (net.objects.toList.drop (u.place.toNat + 1))
  return before ++ .ensemble u.input.id e :: after

theorem part_eq (u : net.Population) (dt : α) :
    Circuit.part dt u.place.toNat ⟨.nonlinear u.input u.function u.params, u.size⟩ = do
      let e ← u.ensemble u.generatorSeed
      return .ensemble u.input.id e := by
  calc Circuit.part dt u.place.toNat ⟨.nonlinear u.input u.function u.params, u.size⟩
      = Part.ensemble u.input.id <$>
          Ensemble.build u.function u.input.size u.size u.params u.place.toNat := by
        simp only [Circuit.part, u.rate]
        rfl
    _ = Part.ensemble u.input.id <$> u.ensemble u.generatorSeed := by
        rw [Ensemble.build_eq_seeded, UInt64.ofNat_toNat]
        rfl
    _ = _ := map_eq_pure_bind _ _

theorem partsFrom_eq (u : net.Population) (dt : α) :
    Circuit.partsFrom dt 0 net.objects.toList = u.partsWith dt u.generatorSeed := by
  have hlt : u.place.toNat < net.objects.size := (Array.getElem?_eq_some_iff.1 u.object).1
  have hlength : (net.objects.toList.take u.place.toNat).length = u.place.toNat :=
    List.length_take_of_le hlt.le
  conv_lhs => rw [u.objects_eq]
  rw [Circuit.partsFrom_append, Circuit.partsFrom, hlength, Nat.zero_add, u.part_eq]
  simp only [partsWith, bind_assoc, pure_bind]

end Network.Population

/-- Mixing a seed with different places gives different generator seeds, the sum and the product being
taken modulo 2 ^ 64. So no two populations of a network that share a seed have the same generator
seed, in whatever order its objects were created; and for each population, the circuit of the network
is the one that has its ensemble drawn from its generator seed. -/
theorem shared_seeds_separate {α : Type} [Scalar α] :
    (∀ seed object : UInt64, (mixSeed seed object).toNat =
      seed.toNat ^^^ ((object.toNat + 1) % 2 ^ 64 * 0x9E3779B97F4A7C15 % 2 ^ 64)) ∧
    (∀ seed : UInt64, Function.Injective (mixSeed seed)) ∧
    ∀ net : Network α,
      (∀ seed : UInt64,
        Set.InjOn Network.Population.generatorSeed {u : net.Population | u.params.seed = seed}) ∧
      ∀ (u : net.Population) (dt : α),
        Scalar.less Scalar.zero dt = true → Scalar.isFinite dt = true →
        Circuit.ofNetwork net dt = do
          let parts ← u.partsWith dt u.generatorSeed
          return ⟨dt, parts.toArray, net.objects.map (·.size), net.probes.toList.map (·.id)⟩ := by
  refine ⟨mixSeed_toNat, mixSeed_injective, fun net => ⟨?_, ?_⟩⟩
  · intro seed u hu v hv h
    have hseed : u.params.seed = v.params.seed := Eq.trans hu (Eq.symm hv)
    rw [Network.Population.generatorSeed, hseed] at h
    exact Network.Population.eq_of_place (mixSeed_injective _ h)
  · intro u dt hpositive hfinite
    simp only [Circuit.ofNetwork, hpositive, hfinite, Bool.not_true, Bool.or_self,
      Bool.false_eq_true, if_false, u.partsFrom_eq dt]

/-- A population that reads another one, both with the same seed. -/
def chainedPopulations : Network ℚ :=
  ⟨none, #[⟨.source (.constant [1]), 1⟩, ⟨.nonlinear ⟨0, 1⟩ id ⟨20, 1, .lifRate, 7⟩, 1⟩,
    ⟨.nonlinear ⟨1, 1⟩ id ⟨30, 2, .lifRate, 7⟩, 1⟩], #[⟨2, 1⟩]⟩

theorem chainedPopulations_separate :
    chainedPopulations.Reachable ∧ ∃ u v : chainedPopulations.Population,
      u.place = 1 ∧ v.place = 2 ∧ u.params.seed = v.params.seed ∧
      u.generatorSeed ≠ v.generatorSeed ∧
      Scalar.less Scalar.zero (1 : ℚ) = true ∧ Scalar.isFinite (1 : ℚ) = true ∧
      Circuit.ofNetwork chainedPopulations 1 = do
        let parts ← v.partsWith 1 v.generatorSeed
        return ⟨1, parts.toArray, chainedPopulations.objects.map (·.size),
          chainedPopulations.probes.toList.map (·.id)⟩ := by
  have h₁ := Network.Reachable.create (r := .source (.constant [(1 : ℚ)])) (.empty none) rfl
  have h₂ := h₁.create (r := .nonlinear ⟨0, 1⟩ id 1 ⟨20, 1, .lifRate, 7⟩) rfl
  have h₃ := h₂.create (r := .nonlinear ⟨1, 1⟩ id 1 ⟨30, 2, .lifRate, 7⟩) rfl
  let u : chainedPopulations.Population := ⟨1, _, _, _, _, rfl, rfl⟩
  let v : chainedPopulations.Population := ⟨2, _, _, _, _, rfl, rfl⟩
  obtain ⟨-, -, hnet⟩ := shared_seeds_separate (α := ℚ)
  obtain ⟨hseparate, hcircuit⟩ := hnet chainedPopulations
  have hpositive : Scalar.less Scalar.zero (1 : ℚ) = true := rfl
  refine ⟨h₃.probe (h := ⟨2, 1⟩) rfl, u, v, rfl, rfl, rfl, ?_, hpositive, rfl, ?_⟩
  · intro h
    have huv := congrArg Network.Population.place (hseparate 7 (show u ∈ _ from rfl) rfl h)
    exact absurd huv (by decide)
  · exact hcircuit v 1 hpositive rfl

end SignalGraph
