import SignalGraph.Element.Builtin
import SignalGraph.Proofs.Effects

namespace SignalGraph

section

variable {α : Type}

theorem Lowering.ofExcept_ok {β : Type} {x : Except ParamError β} {b : β} {next : β → Lowering α}
    (h : x = .ok b) : ofExcept x next = next b := by
  rw [h]
  rfl

/-- The object that a conversation with a target that has slices asks for first. -/
def Lowering.request : Lowering α → Option (Request α)
  | .create q _ => some q
  | .partialConnections next => (next true).request
  | .report _ next => next.request
  | .done _ | .fail _ | .connect .. => none

variable [Scalar α]

theorem ResolvedConfig.read_eq_ok {β : Type} {c : ResolvedConfig α} {key expected : String}
    {view : ParamValue α → Option β} {b : β} :
    c.read key expected view = .ok b ↔ ∃ v, c.values.get? key = some v ∧ view v = some b := by
  cases hv : c.values.get? key with
  | none => simp [read, value, hv, bind_eq_ok]
  | some v =>
    simp only [read, value, hv, bind_eq_ok, Except.ok.injEq, exists_eq_left', Option.some.injEq]
    cases hb : view v <;> simp

theorem ResolvedConfig.read_ok {β : Type} {c : ResolvedConfig α} {key expected : String}
    {view : ParamValue α → Option β} {v : ParamValue α} {b : β} (hv : c.values.get? key = some v)
    (hb : view v = some b) : c.read key expected view = .ok b :=
  read_eq_ok.2 ⟨v, hv, hb⟩

theorem Element.bundleBlocks_fit (total start : Nat) (inputs : List Handle) :
    ∀ p ∈ inputs.zip (bundleBlocks (α := α) total start (inputs.map Handle.size)),
      p.2.nrows = total ∧ p.2.ncols = p.1.size := by
  induction inputs generalizing start with
  | nil => exact nofun
  | cons w inputs ih =>
    intro p hp
    rw [List.map_cons, bundleBlocks, List.zip_cons_cons] at hp
    rcases List.mem_cons.1 hp with rfl | hp
    · exact ⟨rfl, rfl⟩
    · exact ih _ p hp

theorem Element.bundleBlocks_length (total start : Nat) (sizes : List Nat) :
    (bundleBlocks (α := α) total start sizes).length = sizes.length := by
  induction sizes generalizing start with
  | nil => rfl
  | cons size sizes ih => rw [bundleBlocks, List.length_cons, ih, List.length_cons]

end

/-- The kinds of nodes that are built in, with what they are made from. -/
inductive BuiltinKind (α : Type) where
  | stimulus (signal : Signal α)
  | transform (matrices : List (Matrix α))
  | decode (function : VectorFunction α) (size : Nat)
  | slice (indices : List Nat)
  | bundle
  | filter
  | configure

namespace BuiltinKind

variable {α : Type} [Scalar α]

def element : BuiltinKind α → Element α
  | stimulus signal => .stimulus signal
  | transform matrices => .transform matrices
  | decode function size => .decode function size
  | slice indices => .slice indices
  | bundle => .bundle
  | filter => .filter
  | configure => .configure

end BuiltinKind

/-- The elements of the built-in kinds. -/
def Element.IsBuiltin {α : Type} [Scalar α] (e : Element α) : Prop :=
  ∃ kind : BuiltinKind α, e = kind.element

namespace BuiltinKind

variable {α : Type} [Scalar α]

/-- The blocks that put inputs one behind the other. -/
def bundleMatrices (inputs : List Handle) : List (Matrix α) :=
  Element.bundleBlocks (Shape.wordTotal (inputs.map Handle.size)) 0 (inputs.map Handle.size)

theorem bundleMatrices_length (inputs : List Handle) :
    (bundleMatrices (α := α) inputs).length = inputs.length := by
  rw [bundleMatrices, Element.bundleBlocks_length, List.length_map]

theorem bundleMatrices_fit {inputs : List Handle} :
    ∀ p ∈ inputs.zip (bundleMatrices (α := α) inputs),
      p.2.nrows = Shape.wordTotal (inputs.map Handle.size) ∧ p.2.ncols = p.1.size :=
  Element.bundleBlocks_fit _ _ inputs

theorem outputCount_bundleMatrices {inputs : List Handle} (hne : inputs ≠ []) :
    Network.outputCount (bundleMatrices (α := α) inputs) =
      Shape.wordTotal (inputs.map Handle.size) := by
  obtain ⟨w, ws, rfl⟩ := List.exists_cons_of_ne_nil hne
  rfl

/-- What a kind asks a network for, once its inputs are realized and its parameters resolved. -/
inductive Asks (config : ResolvedConfig α) : BuiltinKind α → List Handle → Request α → Prop
  | stimulus (signal : Signal α) (inputs : List Handle) :
    Asks config (stimulus signal) inputs (.source signal)
  | transform (matrices : List (Matrix α)) (inputs : List Handle) :
    Asks config (transform matrices) inputs (.linear inputs matrices)
  | decode (function : VectorFunction α) (size : Nat) (input : Handle) (inputs : List Handle)
      (name : String) (params : NonlinearParams α) :
    config.text "neuron_type" = .ok name → NeuronType.ofText? name = .ok params.neuronType →
      Asks config (decode function size) (input :: inputs) (.nonlinear input function size params)
  | slice (indices : List Nat) (input : Handle) (inputs : List Handle) :
    Asks config (slice indices) (input :: inputs) (.slice input indices)
  | bundle (inputs : List Handle) :
    Asks config bundle inputs (.linear inputs (bundleMatrices inputs))
  | filter (tau : α) (input : Handle) (inputs : List Handle) :
    config.scalar "synapse" = .ok tau → Asks config filter (input :: inputs) (.filter input tau)

open Realize Stateful in
theorem converse_create_ok {q : Request α} {s s' : Realization α (Network α)} {h : Handle}
    (hr : (converse Target.network (.object q)).run s = (.ok h, s')) :
    ∃ t, s.target.create q = .ok (h, t) ∧ s' = { s with target := t } := by
  simp only [Lowering.object, converse, bind_ok, create_ok, pure_ok] at hr
  obtain ⟨_, _, ⟨t, ht, rfl⟩, rfl, rfl⟩ := hr
  exact ⟨t, ht, rfl⟩

open Realize Stateful in
theorem converse_fail {e : RealizeError} {s s' : Realization α (Network α)} {h : Handle} :
    (converse Target.network (.fail e : Lowering α)).run s ≠ (.ok h, s') :=
  throw_ok

open Realize Stateful in
theorem converse_withInput {inputs : List Handle} {next : Handle → Lowering α}
    {s s' : Realization α (Network α)} {h : Handle}
    (hr : (converse Target.network (Element.withInput inputs next)).run s = (.ok h, s')) :
    ∃ input rest, inputs = input :: rest ∧
      (converse Target.network (next input)).run s = (.ok h, s') := by
  cases inputs with
  | nil => exact absurd hr converse_fail
  | cons input rest => exact ⟨input, rest, rfl, hr⟩

open Realize Stateful in
theorem converse_ofExcept {β : Type} {x : Except ParamError β} {next : β → Lowering α}
    {s s' : Realization α (Network α)} {h : Handle}
    (hr : (converse Target.network (.ofExcept x next)).run s = (.ok h, s')) :
    ∃ b, x = .ok b ∧ (converse Target.network (next b)).run s = (.ok h, s') := by
  cases x with
  | error e => exact absurd hr converse_fail
  | ok b => exact ⟨b, rfl, hr⟩

/-- What an approximated function is lowered to, once its parameters are read. -/
theorem lower_decode_eq {function : VectorFunction α} {size count seed : Nat} {name : String}
    {radius : α} {neuronType : NeuronType} {input : Handle} {rest : List Handle}
    {config : ResolvedConfig α} (hname : config.text "neuron_type" = .ok name)
    (hcount : config.nat "n_neurons" = .ok count) (hradius : config.scalar "radius" = .ok radius)
    (htype : NeuronType.ofText? name = .ok neuronType) (hseed : config.nat "seed" = .ok seed) :
    (Element.decode function size).lower (input :: rest) config = .object
      (.nonlinear input function size ⟨count, radius, neuronType, UInt64.ofNat seed⟩) := by
  refine (Lowering.ofExcept_ok hname).trans ?_
  refine (Lowering.ofExcept_ok hcount).trans ?_
  refine (Lowering.ofExcept_ok hradius).trans ?_
  rw [htype]
  exact Lowering.ofExcept_ok hseed

open Realize Stateful in
theorem converse_decode {function : VectorFunction α} {size : Nat} {inputs : List Handle}
    {config : ResolvedConfig α} {s s' : Realization α (Network α)} {h : Handle}
    (hr : (converse Target.network ((Element.decode function size).lower inputs config)).run s =
      (.ok h, s')) :
    ∃ name count radius neuronType seed input rest t, inputs = input :: rest ∧
      config.text "neuron_type" = .ok name ∧ config.nat "n_neurons" = .ok count ∧
      config.scalar "radius" = .ok radius ∧ NeuronType.ofText? name = .ok neuronType ∧
      config.nat "seed" = .ok seed ∧ s.target.create
        (.nonlinear input function size ⟨count, radius, neuronType, UInt64.ofNat seed⟩) = .ok (h, t) ∧
      s' = { s with target := t } := by
  obtain ⟨name, hname, hr⟩ := converse_ofExcept hr
  obtain ⟨count, hcount, hr⟩ := converse_ofExcept hr
  obtain ⟨radius, hradius, hr⟩ := converse_ofExcept hr
  split at hr
  · exact absurd hr converse_fail
  · rename_i neuronType htype
    obtain ⟨seed, hseed, hr⟩ := converse_ofExcept hr
    obtain ⟨input, rest, rfl, hin⟩ := converse_withInput hr
    obtain ⟨t, ht, hs⟩ := converse_create_ok hin
    exact ⟨name, count, radius, neuronType, seed, input, rest, t, rfl, hname, hcount, hradius, htype,
      hseed, ht, hs⟩

open Realize Stateful in
theorem converse_filter {inputs : List Handle} {config : ResolvedConfig α}
    {s s' : Realization α (Network α)} {h : Handle}
    (hr : (converse Target.network (Element.filter.lower inputs config)).run s = (.ok h, s')) :
    ∃ tau input rest t, inputs = input :: rest ∧ config.scalar "synapse" = .ok tau ∧
      s.target.create (.filter input tau) = .ok (h, t) ∧ s' = { s with target := t } := by
  obtain ⟨tau, htau, hr⟩ := converse_ofExcept hr
  obtain ⟨input, rest, rfl, hin⟩ := converse_withInput hr
  obtain ⟨t, ht, hs⟩ := converse_create_ok hin
  exact ⟨tau, input, rest, t, rfl, htau, ht, hs⟩

open Realize Stateful in
/-- A built-in kind stands for its input or makes the one object that its lowering requests. -/
theorem converse_request {kind : BuiltinKind α} {inputs : List Handle} {config : ResolvedConfig α}
    {s s' : Realization α (Network α)} {h : Handle}
    (hr : (converse Target.network (kind.element.lower inputs config)).run s = (.ok h, s')) :
    (kind = configure ∧ (∃ rest, inputs = h :: rest) ∧ s' = s) ∨
      ∃ q t, (kind.element.lower inputs config).request = some q ∧ kind.Asks config inputs q ∧
        s.target.create q = .ok (h, t) ∧ s' = { s with target := t } := by
  cases kind with
  | stimulus signal =>
    obtain ⟨t, ht, hs⟩ := converse_create_ok hr
    exact .inr ⟨_, t, rfl, .stimulus signal inputs, ht, hs⟩
  | transform matrices =>
    obtain ⟨t, ht, hs⟩ := converse_create_ok hr
    exact .inr ⟨_, t, rfl, .transform matrices inputs, ht, hs⟩
  | decode function size =>
    obtain ⟨name, count, radius, neuronType, seed, input, rest, t, rfl, hname, hcount, hradius, htype,
      hseed, ht, hs⟩ := converse_decode hr
    refine .inr ⟨_, t, ?_, .decode function size input rest name _ hname htype, ht, hs⟩
    exact congrArg Lowering.request (lower_decode_eq hname hcount hradius htype hseed)
  | slice indices =>
    obtain ⟨input, rest, rfl, hin⟩ := converse_withInput hr
    simp only [converse, bind_ok, get_ok] at hin
    obtain ⟨_, _, ⟨rfl, rfl⟩, hnext⟩ := hin
    obtain ⟨t, ht, hs⟩ := converse_create_ok hnext
    exact .inr ⟨_, t, rfl, .slice indices input rest, ht, hs⟩
  | bundle =>
    obtain ⟨t, ht, hs⟩ := converse_create_ok hr
    exact .inr ⟨_, t, rfl, .bundle inputs, ht, hs⟩
  | filter =>
    obtain ⟨tau, input, rest, t, rfl, htau, ht, hs⟩ := converse_filter hr
    refine .inr ⟨_, t, ?_, .filter tau input rest htau, ht, hs⟩
    exact congrArg Lowering.request (Lowering.ofExcept_ok htau)
  | configure =>
    obtain ⟨input, rest, rfl, hin⟩ := converse_withInput hr
    simp only [converse, pure_ok] at hin
    obtain ⟨rfl, rfl⟩ := hin
    exact .inl ⟨rfl, ⟨rest, rfl⟩, rfl⟩

open Realize Stateful in
/-- A built-in kind stands for its input or makes the one object that it asks for. -/
theorem converse_ok {kind : BuiltinKind α} {inputs : List Handle} {config : ResolvedConfig α}
    {s s' : Realization α (Network α)} {h : Handle}
    (hr : (converse Target.network (kind.element.lower inputs config)).run s = (.ok h, s')) :
    (kind = configure ∧ (∃ rest, inputs = h :: rest) ∧ s' = s) ∨
      ∃ q t, kind.Asks config inputs q ∧ s.target.create q = .ok (h, t) ∧
        s' = { s with target := t } := by
  rcases converse_request hr with hinput | ⟨q, t, -, hq, ht, hs⟩
  · exact .inl hinput
  · exact .inr ⟨q, t, hq, ht, hs⟩

end BuiltinKind

end SignalGraph
