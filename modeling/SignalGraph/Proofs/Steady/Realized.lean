import SignalGraph.Proofs.Lowering.Realized
import SignalGraph.Proofs.Steady.Configuration
import SignalGraph.Proofs.Steady.Networks

namespace SignalGraph

open Realize Stateful

variable {α : Type} [Scalar α] {g : Graph α} {value : Nat → List α}

/-- What the object of a node is asked for: an object of the node's size that reads the inputs and
has the value of the node. -/
structure Request.Serves (q : Request α) (f : Nat → List α) (inputs : List Handle) (size : Nat)
    (out : List α) : Prop where
  size_eq : q.size = size
  reads : ∀ w ∈ q.object.reads, w ∈ inputs
  fits : q.object.Fits q.size
  yields : q.object.Yields f size out

section

variable {f : Nat → List α} {inputs : List Handle} {ns : List Node} {size : Nat} {out : List α}

/-- A weighted sum whose matrices fit the inputs. -/
theorem Request.serves_linear {ms : List (Matrix α)} (hcount : Network.outputCount ms = size)
    (hne : inputs ≠ []) (hl : inputs.length = ms.length) (hsize : size ≠ 0)
    (hfit : ∀ p ∈ inputs.zip ms, p.2.nrows = size ∧ p.2.ncols = p.1.size)
    (ho : out = Matrix.weightedSum size (inputs.map fun w => f w.id) ms) :
    (Request.linear inputs ms).Serves f inputs size out := by
  subst hcount
  exact ⟨rfl, fun w hw => hw, ⟨hne, hl, hsize, hfit⟩, .linear ho⟩

variable (hin : List.Forall₂ (fun m w => f w.id = value m.index ∧ (f w.id).length = w.size) ns
  inputs)

include hin

omit [Scalar α] in
theorem serves_values : (inputs.map fun w => f w.id) = ns.map fun m => value m.index :=
  (forall₂_map_eq (hin.imp fun _ _ hw => hw.1.symm)).symm

omit [Scalar α] in
theorem serves_ne_nil (hne : ns ≠ []) : inputs ≠ [] := by
  rintro rfl
  cases hin
  exact hne rfl

theorem Request.serves_transform {ms : List (Matrix α)} (hne : ns ≠ [])
    (hl : ns.length = ms.length) (hsize : size ≠ 0)
    (hall : ∀ p ∈ ns.zip ms, p.2.nrows = size ∧ p.2.ncols = (value p.1.index).length)
    (ho : out = Matrix.weightedSum size (ns.map fun n => value n.index) ms) :
    (Request.linear inputs ms).Serves f inputs size out := by
  have hcount : Network.outputCount ms = size := by
    obtain ⟨m, ns, rfl⟩ := List.exists_cons_of_ne_nil hne
    cases ms with
    | nil => cases hl
    | cons a ms => exact (hall (m, a) List.mem_cons_self).1
  refine serves_linear hcount (serves_ne_nil hin hne) (hin.length_eq.symm.trans hl) hsize ?_ ?_
  · intro p hp
    obtain ⟨m, ⟨hvalue, hlength⟩, hm⟩ := forall₂_zip hin hp
    obtain ⟨hrows, hcols⟩ := hall _ hm
    exact ⟨hrows, by rw [hcols, ← hlength, hvalue]⟩
  · rw [serves_values hin]
    exact ho

theorem Request.serves_bundle [Scalar.Exact α] (hne : ns ≠ []) (hsize : size ≠ 0)
    (hlt : size < wordCount) (hl : out.length = size)
    (ho : out = (ns.map fun n => value n.index).flatten) :
    (Request.linear inputs (BuiltinKind.bundleMatrices inputs)).Serves f inputs size out := by
  have hinputs := serves_ne_nil hin hne
  have hvalues := serves_values hin
  have hlengths : inputs.map Handle.size = (inputs.map fun w => f w.id).map List.length := by
    rw [List.map_map]
    refine List.map_congr_left fun w hw => ?_
    obtain ⟨m, -, hm⟩ := forall₂_mem_right hin hw
    exact hm.2.symm
  have hsum : size = ((inputs.map fun w => f w.id).map List.length).sum := by
    rw [hvalues, ← List.length_flatten, ← hl, ho]
  have htotal : Shape.wordTotal (inputs.map Handle.size) = size := by
    rw [hsum] at hlt
    rw [hlengths, hsum]
    exact Shape.wordTotal_of_lt hlt
  refine serves_linear ((BuiltinKind.outputCount_bundleMatrices hinputs).trans htotal) hinputs
    (BuiltinKind.bundleMatrices_length inputs).symm hsize (htotal ▸ BuiltinKind.bundleMatrices_fit)
    ?_
  rw [BuiltinKind.bundleMatrices, htotal, hlengths, Matrix.weightedSum_bundleBlocks hsum, hvalues]
  exact ho

end

/-- A node of a steady graph asks for one object, which has the node's value. -/
theorem NodeRecord.Steady.lower [Scalar.Exact α] {r : NodeRecord α} {out : List α}
    (h : r.Steady value out) {f : Nat → List α} {inputs : List Handle} (hs : g.Steady value)
    (n : Node)
    (hin : List.Forall₂ (fun m w => f w.id = value m.index ∧ (f w.id).length = w.size)
      r.inputs inputs) :
    ∃ (e : Element α) (config : ResolvedConfig α) (q : Request α), r.kind = .element e ∧
      g.resolve n e.configurable Defaults.standard = .ok config ∧
        e.lower inputs config = .object q ∧ q.Serves f inputs r.size out := by
  have hplain : g.resolve n [] Defaults.standard = .ok ⟨g.kindOf n, .ofList []⟩ := by
    rw [hs.resolve]
    rfl
  cases h with
  | stimulus hne =>
    refine ⟨_, _, _, rfl, hplain, rfl, rfl, fun w hw => absurd hw List.not_mem_nil, ⟨rfl, ?_⟩,
      .source⟩
    exact fun h => hne (List.length_eq_zero_iff.1 h)
  | transform hne hl hsize hall ho =>
    exact ⟨_, _, _, rfl, hplain, rfl, Request.serves_transform hin hne hl hsize hall ho⟩
  | @decode m function size hsize hl ho =>
    obtain ⟨w, ws, ⟨hvalue, -⟩, hnil, rfl⟩ := List.forall₂_cons_left_iff.1 hin
    obtain rfl := List.forall₂_nil_left_iff.1 hnil
    have hconfig : g.resolve n (Element.decode function size).configurable Defaults.standard =
        .ok (decodeConfig (g.kindOf n)) := by
      rw [hs.resolve, choose_decode]
    refine ⟨_, _, .nonlinear w function size .standard, rfl, hconfig, lower_decode _ _ _ _ _, rfl,
      fun w hw => hw, ⟨hsize, NeuronType.noConfusion, Scalar.Exact.less_zero_one,
        Scalar.Exact.isFinite _⟩, ?_⟩
    refine .direct rfl ?_
    rw [hvalue]
    exact ho
  | bundle hne hsize hlt hl ho =>
    exact ⟨_, _, _, rfl, hplain, rfl, Request.serves_bundle hin hne hsize hlt hl ho⟩

namespace Realization

/-- A realization on a network whose objects have the values `f`, those of known nodes the values of
the nodes. -/
structure Shows (value f : Nat → List α) (r : Realization α (Network α)) : Prop where
  reachable : r.target.Reachable
  healthy : r.poisoned = false
  steady : r.target.Steady f
  known : ∀ n w, r.built n = some w → r.target.holds w = true ∧ f w.id = value n.index

def Steady (value : Nat → List α) (r : Realization α (Network α)) : Prop := ∃ f, r.Shows value f

/-- Nothing is forgotten. -/
def Keeps (r r' : Realization α (Network α)) : Prop :=
  ∀ n w, r.built n = some w → r'.built n = some w

theorem start_steady (value : Nat → List α) (label : Option String) :
    (start (.empty label)).Steady value := by
  refine ⟨value, .empty label, rfl, .empty label value, ?_⟩
  intro n w hb
  cases hb

variable {r : Realization α (Network α)} {f : Nat → List α}

/-- The object that a node asks for is made, and from then on it stands for the node. -/
theorem Shows.create (h : r.Shows value f) {q : Request α} {inputs : List Handle} {size : Nat}
    {out : List α} {n : Node} (hq : q.Serves f inputs size out)
    (hin : ∀ w ∈ inputs, r.target.holds w = true) (hn : value n.index = out)
    (hl : out.length = size) :
    ∃ w t, r.target.create q = .ok (w, t) ∧ w.size = size ∧
      ({ r with target := t, memo := (n, w) :: r.memo } : Realization α (Network α)).Steady
        value := by
  have hc : r.target.create q = .ok (⟨r.target.size, q.size⟩, _) :=
    Network.create_eq_ok.2 ⟨⟨rfl, rfl⟩, fun w hw => hin w (hq.reads w hw), hq.fits⟩
  have hyields : q.object.Yields f q.size out := by
    rw [hq.size_eq]
    exact hq.yields
  have hwell := h.reachable.wellFormed
  refine ⟨_, _, hc, hq.size_eq, Function.update f r.target.size out, h.reachable.create hc, h.healthy,
    h.steady.create hwell hc hyields (hl.trans hq.size_eq.symm), ?_⟩
  intro m w hb
  rw [Realization.built_cons { r with target := _ }] at hb
  split at hb
  · rename_i hm
    cases hb
    refine ⟨Network.holds_iff.2 ⟨_, (Network.create_object hc).2.1, rfl⟩, ?_⟩
    rw [Function.update_self, hm, hn]
  · obtain ⟨hh, hf⟩ := h.known m w hb
    refine ⟨(Network.push_grows _ _ _).holds hh, ?_⟩
    rw [Function.update_of_ne (Nat.ne_of_lt (Network.holds_lt hh)), hf]

end Realization

namespace Realize

variable [Scalar.Exact α]

open Realization

/-- Every place of a steady graph can be realized. -/
theorem place_steady (hs : g.Steady value) {i : Nat} (hi : i < g.size)
    {r : Realization α (Network α)} (hr : r.Steady value) :
    ∃ w r', (place Target.network g Defaults.standard i).run r = (.ok w, r') ∧ r'.Steady value ∧
      r.Keeps r' ∧ r'.built ⟨i⟩ = some w := by
  induction i using Nat.strongRecOn generalizing r with
  | ind i ih =>
    cases hb : r.built ⟨i⟩ with
    | some w => exact ⟨w, r, place_ok.2 (.known hb), hr, fun _ _ h => h, hb⟩
    | none =>
      have hrec : g.records[i]? = some g.records[i] := Array.getElem?_eq_getElem hi
      have hback : ∀ n ∈ g.records[i].inputs, n.index < i := Graph.inputs_lt (n := ⟨i⟩) hrec
      obtain ⟨inputs, r₁, hin, ⟨f, h₁⟩, hkeeps, hall⟩ := mapM_total (I := Steady value) (R := Keeps)
        (Q := fun n w r => r.built n = some w) (fun _ _ _ h => h)
        (fun h h' n w hn => h' n w (h n w hn)) (fun hn h => h _ _ hn)
        (fun n hn r hr => ih n.index (hback n hn) (Nat.lt_trans (hback n hn) hi) hr) hr
      have hsteady := hs i _ hrec
      have hvalues : List.Forall₂ (fun m w => f w.id = value m.index ∧ (f w.id).length = w.size)
          g.records[i].inputs inputs := by
        refine hall.imp fun m w hm => ?_
        obtain ⟨hh, hf⟩ := h₁.known m w hm
        exact ⟨hf, h₁.steady.length hh⟩
      obtain ⟨e, config, q, hk, hres, hlower, hq⟩ := hsteady.lower hs ⟨i⟩ hvalues
      have hholds : ∀ w ∈ inputs, r₁.target.holds w = true := by
        intro w hw
        obtain ⟨m, -, hm⟩ := forall₂_mem_right hall hw
        exact (h₁.known m w hm).1
      obtain ⟨w, t, hc, hsize, hfinal⟩ := h₁.create (n := ⟨i⟩) hq hholds rfl hsteady.length
      have hconverse : (converse Target.network (e.lower inputs config)).run r₁ =
          (.ok w, { r₁ with target := t }) := by
        simp only [hlower, Lowering.object, converse, bind_ok, create_ok, pure_ok]
        exact ⟨w, _, ⟨t, hc, rfl⟩, rfl, rfl⟩
      refine ⟨w, _, place_ok.2 (.element hb hrec hk (hs.checkOverlay _ _) hres hin hconverse hsize),
        hfinal, ?_, ?_⟩
      · intro n k hn
        rw [Realization.built_cons { r₁ with target := t }, if_neg ?_]
        · exact hkeeps n k hn
        · rintro rfl
          rw [hb] at hn
          cases hn
      · rw [Realization.built_cons { r₁ with target := t }, if_pos rfl]

end Realize

end SignalGraph
