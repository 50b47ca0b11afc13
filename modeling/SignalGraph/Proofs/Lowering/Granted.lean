import Mathlib.Data.List.Zip
import SignalGraph.Proofs.Graph.Constructors
import SignalGraph.Proofs.Lowering.Kinds
import SignalGraph.Proofs.Network.Calls

namespace SignalGraph

variable {α : Type} [Scalar α]

namespace ResolvedConfig

/-- Whether a function can be approximated under the parameters: a number of neurons, which rate
neurons have to have, a radius, a known kind of neurons and a seed. -/
def decodes (c : ResolvedConfig α) : Bool :=
  match c.values.get? "n_neurons", c.values.get? "radius", c.values.get? "neuron_type",
    c.values.get? "seed" with
  | some (.int count), some radius, some (.text name), some (.int seed) =>
    0 ≤ count && 0 ≤ seed &&
      (radius.toScalar?.any fun x => Scalar.less Scalar.zero x && Scalar.isFinite x) &&
        match NeuronType.ofText? name with
        | .ok type => type ≠ .lifRate || count ≠ 0
        | .error _ => false
  | _, _, _, _ => false

/-- Whether a value can be smoothed under the parameters. -/
def smooths (c : ResolvedConfig α) : Bool :=
  (c.values.get? "synapse").any fun v =>
    v.toScalar?.any fun tau => Scalar.atMost Scalar.zero tau && Scalar.isFinite tau

/-- Whether the parameters of a node are of the right types and in their ranges. -/
def inRange (c : ResolvedConfig α) : Bool :=
  match c.kind with
  | "decode" => c.decodes
  | "filter" => c.smooths
  | _ => true

theorem read_nat {c : ResolvedConfig α} {key : String} {i : Int}
    (h : c.values.get? key = some (.int i)) (hi : 0 ≤ i) : c.nat key = .ok i.toNat := by
  obtain ⟨n, rfl⟩ := Int.eq_ofNat_of_zero_le hi
  exact read_ok h rfl

/-- What was read as a natural number is one. -/
theorem nat_ok {c : ResolvedConfig α} {key : String} {n : Nat} (h : c.nat key = .ok n) :
    c.values.get? key = some (.int n) := by
  obtain ⟨v, hv, hn⟩ := read_eq_ok.1 h
  cases v with
  | int i =>
    obtain rfl := Int.mem_toNat?.1 hn
    exact hv
  | bool | float | text => cases hn

end ResolvedConfig

namespace BuiltinKind

/-- Under parameters in their ranges a function is lowered to an object that a network makes. -/
theorem exists_lower_decode {config : ResolvedConfig α} (h : config.decodes = true)
    (function : VectorFunction α) (size : Nat) (input : Handle) (rest : List Handle) :
    ∃ params : NonlinearParams α, (Element.decode function size).lower (input :: rest) config =
        .object (.nonlinear input function size params) ∧
      (params.neuronType = .lifRate → params.neuronCount ≠ 0) ∧
      Scalar.less Scalar.zero params.radius = true ∧ Scalar.isFinite params.radius = true := by
  unfold ResolvedConfig.decodes at h
  split at h
  · rename_i count radius name seed hcount hradius hname hseed
    simp only [Bool.and_eq_true, decide_eq_true_eq, Option.any_eq_true] at h
    obtain ⟨⟨⟨hc, hs⟩, x, hx, hpositive, hfinite⟩, htype⟩ := h
    split at htype
    · rename_i type hknown
      refine ⟨⟨count.toNat, x, type, UInt64.ofNat seed.toNat⟩, ?_, fun hrate => ?_, hpositive,
        hfinite⟩
      · have htext : config.text "neuron_type" = .ok name := ResolvedConfig.read_ok hname rfl
        exact lower_decode_eq htext (ResolvedConfig.read_nat hcount hc)
          (ResolvedConfig.read_ok hradius hx) hknown (ResolvedConfig.read_nat hseed hs)
      · change type = .lifRate at hrate
        change count.toNat ≠ 0
        have hne : count ≠ 0 := by simpa [hrate] using htype
        omega
    · cases htype
  · cases h

/-- Under a parameter in its range a value is smoothed by an object that a network makes. -/
theorem exists_lower_filter {config : ResolvedConfig α} (h : config.smooths = true) (input : Handle)
    (rest : List Handle) :
    ∃ tau : α, Element.filter.lower (input :: rest) config = .object (.filter input tau) ∧
      Scalar.atMost Scalar.zero tau = true ∧ Scalar.isFinite tau = true := by
  simp only [ResolvedConfig.smooths, Option.any_eq_true, Bool.and_eq_true] at h
  obtain ⟨v, hv, tau, htau, hnonnegative, hfinite⟩ := h
  exact ⟨tau, Lowering.ofExcept_ok (ResolvedConfig.read_ok hv htau), hnonnegative, hfinite⟩

open Realize Stateful

variable {r : Realization α (Network α)} {inputs : List Handle} {config : ResolvedConfig α}
  {size : Nat}

/-- A conversation with the network that ends with an object of the size. -/
def Grants (r : Realization α (Network α)) (l : Lowering α) (size : Nat) : Prop :=
  ∃ h r', (converse Target.network l).run r = (.ok h, r') ∧ h.size = size

/-- An object that reads objects of the network and fits its size is made. -/
theorem grants_object {q : Request α} (hreads : ∀ w ∈ q.object.reads, r.target.holds w = true)
    (hfits : q.object.Fits q.size) : Grants r (.object q) q.size := by
  have hc : r.target.create q = .ok (⟨r.target.size, q.size⟩, _) :=
    Network.create_eq_ok.2 ⟨⟨rfl, rfl⟩, hreads, hfits⟩
  refine ⟨⟨r.target.size, q.size⟩, { r with target := (r.target.push q.object q.size).2 }, ?_, rfl⟩
  simp only [Lowering.object, converse, bind_ok, create_ok, pure_ok]
  exact ⟨_, _, ⟨_, hc, rfl⟩, rfl, rfl⟩

theorem singleInput_ok {kind : String}
    (h : Element.singleInput kind (inputs.map Handle.size) = .ok size) :
    ∃ input, inputs = [input] ∧ input.size = size := by
  match inputs with
  | [input] =>
    cases h
    exact ⟨input, rfl, rfl⟩
  | [] => cases h
  | _ :: _ :: _ => cases h

section

variable (hne : size ≠ 0) (hholds : ∀ w ∈ inputs, r.target.holds w = true)

include hne hholds

theorem grants_transform {matrices : List (Matrix α)}
    (hsize : (Element.transform matrices).sizeOut (inputs.map Handle.size) = .ok size) :
    Grants r ((Element.transform matrices).lower inputs config) size := by
  obtain ⟨hl, hinputs, rfl, hall⟩ := Element.transform_sizeOut.1 hsize
  rw [List.length_map] at hl
  refine grants_object (q := .linear inputs matrices) hholds ⟨?_, hl, hne, fun p hp => ?_⟩
  · rintro rfl
    exact hinputs rfl
  · have hmem : (p.2, p.1.size) ∈ matrices.zip (inputs.map Handle.size) := by
      rw [List.zip_map_right, ← List.zip_swap]
      exact List.mem_map.2 ⟨(p.2, p.1), List.mem_map.2 ⟨p, hp, rfl⟩, rfl⟩
    obtain ⟨hcols, hrows⟩ := hall _ hmem
    exact ⟨hrows, hcols⟩

theorem grants_decode {function : VectorFunction α} {n : Nat}
    (hsize : (Element.decode function n).sizeOut (inputs.map Handle.size) = .ok size)
    (hconfig : config.decodes = true) :
    Grants r ((Element.decode function n).lower inputs config) size := by
  simp only [Element.decode, bind_eq_ok, pure_eq_ok] at hsize
  obtain ⟨_, hinput, rfl⟩ := hsize
  obtain ⟨_, hinput, -⟩ := map_eq_ok.1 hinput
  obtain ⟨input, rfl, -⟩ := singleInput_ok hinput
  obtain ⟨params, hlower, hfits⟩ := exists_lower_decode hconfig function n input []
  rw [hlower]
  exact grants_object hholds ⟨hne, hfits⟩

theorem grants_slice {indices : List Nat}
    (hsize : (Element.slice (α := α) indices).sizeOut (inputs.map Handle.size) = .ok size) :
    Grants r ((Element.slice indices).lower inputs config) size := by
  simp only [Element.slice, bind_eq_ok] at hsize
  obtain ⟨n, hinput, hsize⟩ := hsize
  obtain ⟨input, rfl, rfl⟩ := singleInput_ok hinput
  split at hsize
  · cases hsize
  · rename_i hfind
    cases hsize
    have hindices : ∀ i ∈ indices, i < input.size := by simpa using hfind
    obtain ⟨h, r', hrun, hh⟩ :=
      grants_object (r := r) (q := .slice input indices) hholds ⟨rfl, hne, hindices⟩
    refine ⟨h, r', ?_, hh⟩
    -- The network is asked first whether it has slices.
    change (converse Target.network (.partialConnections _)).run r = _
    simp only [converse, bind_ok, get_ok]
    exact ⟨r, r, ⟨rfl, rfl⟩, hrun⟩

theorem grants_bundle
    (hsize : (Element.bundle (α := α)).sizeOut (inputs.map Handle.size) = .ok size) :
    Grants r (Element.bundle.lower inputs config) size := by
  simp only [Element.bundle] at hsize
  split at hsize
  · cases hsize
  · rename_i hinputs
    cases hsize
    have hinputs : inputs ≠ [] := by
      rintro rfl
      exact hinputs rfl
    have hcount := outputCount_bundleMatrices (α := α) hinputs
    rw [← hcount] at hne ⊢
    refine grants_object (q := .linear inputs (bundleMatrices inputs)) hholds
      ⟨hinputs, (bundleMatrices_length inputs).symm, hne, fun p hp => ?_⟩
    rw [Request.size, hcount]
    exact bundleMatrices_fit p hp

theorem grants_filter
    (hsize : (Element.filter (α := α)).sizeOut (inputs.map Handle.size) = .ok size)
    (hconfig : config.smooths = true) : Grants r (Element.filter.lower inputs config) size := by
  obtain ⟨input, rfl, rfl⟩ := singleInput_ok hsize
  obtain ⟨tau, hlower, hfits⟩ := exists_lower_filter hconfig input []
  rw [hlower]
  exact grants_object hholds ⟨rfl, hfits⟩

/-- What construction has checked suffices for the network. -/
theorem converse_total {kind : BuiltinKind α}
    (hsize : kind.element.sizeOut (inputs.map Handle.size) = .ok size)
    (hkind : config.kind = kind.element.name) (hconfig : config.inRange = true) :
    Grants r (kind.element.lower inputs config) size := by
  cases kind with
  | stimulus signal =>
    simp only [element, Element.stimulus] at hsize
    split at hsize
    · cases hsize
      exact grants_object (q := .source signal) (fun w hw => absurd hw List.not_mem_nil) ⟨rfl, hne⟩
    · cases hsize
  | transform matrices => exact grants_transform hne hholds hsize
  | decode function n =>
    rw [ResolvedConfig.inRange, hkind] at hconfig
    exact grants_decode hne hholds hsize hconfig
  | slice indices => exact grants_slice hne hholds hsize
  | bundle => exact grants_bundle hne hholds hsize
  | filter =>
    rw [ResolvedConfig.inRange, hkind] at hconfig
    exact grants_filter hne hholds hsize hconfig
  | configure =>
    obtain ⟨input, rfl, hinput⟩ := singleInput_ok hsize
    exact ⟨input, r, rfl, hinput⟩

end

/-- What a network grants was lowered under parameters in their ranges. -/
theorem inRange_of_converse (kind : BuiltinKind α) {r' : Realization α (Network α)} {h : Handle}
    (hkind : config.kind = kind.element.name)
    (hr : (converse Target.network (kind.element.lower inputs config)).run r = (.ok h, r')) :
    config.inRange = true := by
  rw [ResolvedConfig.inRange, hkind]
  cases kind with
  | decode function n =>
    obtain ⟨name, count, radius, neuronType, seed, input, rest, t, -, hname, hcount, hradius, htype,
      hseed, ht, -⟩ := converse_decode hr
    obtain ⟨-, -, -, hrate, hpositive, hfinite⟩ := Network.create_eq_ok.1 ht
    obtain ⟨v, hv, hname⟩ := ResolvedConfig.read_eq_ok.1 hname
    obtain ⟨w, hw, hradius⟩ := ResolvedConfig.read_eq_ok.1 hradius
    cases v with
    | text s =>
      cases hname
      have hneurons : neuronType = .lifRate → count ≠ 0 := hrate
      simp only [element, Element.decode, ResolvedConfig.decodes, ResolvedConfig.nat_ok hcount, hw, hv,
        ResolvedConfig.nat_ok hseed, hradius, htype, Option.any_some, Bool.and_eq_true,
        decide_eq_true_eq]
      refine ⟨⟨⟨Int.natCast_nonneg _, Int.natCast_nonneg _⟩, hpositive, hfinite⟩, ?_⟩
      by_cases hlif : neuronType = .lifRate
      · simp [hneurons hlif]
      · simp [hlif]
    | bool | float | int => cases hname
  | filter =>
    obtain ⟨tau, input, rest, t, -, htau, ht, -⟩ := converse_filter hr
    obtain ⟨-, -, -, hnonnegative, hfinite⟩ := Network.create_eq_ok.1 ht
    obtain ⟨v, hv, htau⟩ := ResolvedConfig.read_eq_ok.1 htau
    simp only [element, Element.filter, ResolvedConfig.smooths, hv, htau, Option.any_some,
      Bool.and_eq_true]
    exact ⟨hnonnegative, hfinite⟩
  | _ => rfl

end BuiltinKind

end SignalGraph
