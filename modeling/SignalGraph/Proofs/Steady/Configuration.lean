import SignalGraph.Graph.Overlay
import SignalGraph.Proofs.Graph.Steady
import SignalGraph.Proofs.Lowering.Kinds

namespace SignalGraph

namespace Graph.Steady

variable {α : Type} [Scalar α] {g : Graph α} {value : Nat → List α}

theorem overlayOf (hs : g.Steady value) (n : Node) : g.overlayOf n = .empty := by
  rw [Graph.overlayOf]
  cases hr : g.record? n with
  | none => rfl
  | some r => cases hs _ r hr <;> rfl

theorem explicitOf (hs : g.Steady value) (n : Node) : g.explicitOf n = .empty := by
  rw [Graph.explicitOf]
  cases hr : g.record? n with
  | none => rfl
  | some r => cases hs _ r hr <;> rfl

theorem gather (hs : g.Steady value) (keys : List String) (found : Params α) (n : Node) :
    g.gather keys found n = found := by
  rw [Graph.gather, hs.overlayOf]
  refine List.foldl_fixed' (fun key => ?_) keys
  simp

theorem walk (hs : g.Steady value) (keys : List String) (depth : Nat) (seen : Array Bool)
    (level : List Node) (found : Params α) : g.walk keys depth seen level found = found := by
  induction depth generalizing seen level with
  | zero => rfl
  | succ depth ih =>
    have hlevel : level.foldl (g.gather keys) found = found :=
      List.foldl_fixed' (hs.gather keys found) level
    simp only [Graph.walk, hlevel, ih]
    simp

theorem nearestOverlays (hs : g.Steady value) (n : Node) (keys : List String) :
    g.nearestOverlays n keys = .empty := by
  simp only [Graph.nearestOverlays, hs.walk]
  simp

theorem checkOverlay (hs : g.Steady value) (n : Node) (defaults : Defaults α) :
    g.checkOverlay n defaults = .ok () := by
  rw [Graph.checkOverlay, hs.overlayOf]
  rfl

/-- Every parameter has its default. -/
theorem resolve (hs : g.Steady value) (n : Node) (keys : List String) (defaults : Defaults α) :
    g.resolve n keys defaults =
      (⟨g.kindOf n, .ofList ·⟩) <$> keys.mapM (choose .empty .empty defaults (g.kindOf n)) := by
  rw [Graph.resolve, hs.explicitOf, hs.nearestOverlays]
  rfl

end Graph.Steady

variable {α : Type} [Scalar α]

/-- The configuration of a function under the standard defaults. -/
def decodeConfig (kind : String) : ResolvedConfig α :=
  ⟨kind, .ofList [("n_neurons", .int 100), ("radius", .float Scalar.one),
    ("neuron_type", .text "direct"), ("seed", .int 0)]⟩

theorem choose_decode (kind : String) (function : VectorFunction α) (size : Nat) :
    (fun values => (⟨kind, .ofList values⟩ : ResolvedConfig α)) <$>
        (Element.decode function size).configurable.mapM
          (Graph.choose .empty .empty Defaults.standard kind) =
      .ok (decodeConfig kind) := by
  have hget : ∀ key, (Defaults.standard : Defaults α).get? key =
      if key = "synapse" then some (.float (Scalar.ratio 5 1000))
      else if key = "seed" then some (.int 0)
      else if key = "neuron_type" then some (.text "direct")
      else if key = "radius" then some (.float Scalar.one)
      else if key = "n_neurons" then some (.int 100) else none := by
    intro key
    simp [Defaults.standard, Defaults.ofSettings, BuildSettings.entries, BuildSettings.standard,
      KeyMap.ofList, KeyMap.empty]
    rfl
  simp [Element.decode, Graph.choose, hget, decodeConfig]

theorem neuronType_direct : NeuronType.ofText? "direct" = .ok .direct := by
  decide +kernel

/-- A function is computed as it is given. -/
theorem lower_decode (kind : String) (function : VectorFunction α) (size : Nat) (input : Handle)
    (inputs : List Handle) :
    (Element.decode function size).lower (input :: inputs) (decodeConfig kind) =
      .object (.nonlinear input function size .standard) := by
  have hget : ∀ key, (decodeConfig kind : ResolvedConfig α).values.get? key =
      if key = "seed" then some (.int 0)
      else if key = "neuron_type" then some (.text "direct")
      else if key = "radius" then some (.float Scalar.one)
      else if key = "n_neurons" then some (.int 100) else none := by
    intro key
    simp [decodeConfig, KeyMap.ofList]
  have htype : (decodeConfig kind : ResolvedConfig α).text "neuron_type" = .ok "direct" :=
    ResolvedConfig.read_ok (v := .text "direct") ((hget _).trans (by simp)) rfl
  have hcount : (decodeConfig kind : ResolvedConfig α).nat "n_neurons" = .ok 100 :=
    ResolvedConfig.read_ok (v := .int 100) ((hget _).trans (by simp)) rfl
  have hradius : (decodeConfig kind : ResolvedConfig α).scalar "radius" = .ok Scalar.one :=
    ResolvedConfig.read_ok (v := .float Scalar.one) ((hget _).trans (by simp)) rfl
  have hseed : (decodeConfig kind : ResolvedConfig α).nat "seed" = .ok 0 :=
    ResolvedConfig.read_ok (v := .int 0) ((hget _).trans (by simp)) rfl
  refine (Lowering.ofExcept_ok htype).trans ?_
  refine (Lowering.ofExcept_ok hcount).trans ?_
  refine (Lowering.ofExcept_ok hradius).trans ?_
  rw [neuronType_direct]
  exact Lowering.ofExcept_ok hseed

end SignalGraph
