import SignalGraph.Proofs.Graph.Parameters

namespace SignalGraph

namespace Graph

variable {α : Type} {g : Graph α} {n : Node} {keys : List String} {key : String}

/-- Nodes that lie before a node, along inputs. -/
inductive Before (g : Graph α) (n : Node) : Node → Prop
  | input {m : Node} : m ∈ g.inputsOf n → Before g n m
  | through {m k : Node} : Before g n m → k ∈ g.inputsOf m → Before g n k

/-- No overlay before a node sets any of some parameters. -/
def Plain (g : Graph α) (n : Node) (keys : List String) : Prop :=
  ∀ m, g.Before n m → ∀ key ∈ keys, (g.overlayOf m).get? key = none

theorem Plain.of_all (h : ∀ i < g.size, ∀ key ∈ keys, (g.overlayOf ⟨i⟩).contains key = false) :
    g.Plain n keys := by
  intro m _ key hkey
  by_cases hm : m.index < g.size
  · exact Option.not_isSome_iff_eq_none.1 (Bool.not_eq_true _ ▸ h m.index hm key hkey)
  · have hnone : g.record? m = none := Array.getElem?_eq_none (Nat.le_of_not_lt hm)
    rw [overlayOf, hnone]
    rfl

theorem Before.of_input {m k : Node} (hk : k ∈ g.inputsOf n) (h : g.Before k m) : g.Before n m := by
  induction h with
  | input hm => exact .through (.input hk) hm
  | through _ hm ih => exact .through ih hm

theorem Before.of_upstream {m : Node} (h : m ∈ g.upstream n) : g.Before n m := by
  obtain ⟨is, hne, hm⟩ := mem_upstream.1 h
  clear h
  induction is generalizing n with
  | nil => exact absurd rfl hne
  | cons i is ih =>
    obtain ⟨k, hk, hm⟩ := follow_cons.1 hm
    have hk := List.mem_of_getElem? hk
    cases is with
    | nil =>
      cases hm
      exact .input hk
    | cons j js => exact .of_input hk (ih (List.cons_ne_nil j js) hm)

theorem Plain.nearestOverlays (h : g.Plain n keys) (hkey : key ∈ keys) (wanted : List String) :
    (g.nearestOverlays n wanted).get? key = none := by
  rw [nearestOverlays_get?, List.findSome?_eq_none_iff]
  intro m hm
  rw [offered, h m (.of_upstream hm) key hkey]
  exact ite_self none

/-- A node that neither is given a parameter nor lies behind an overlay with it has its default. -/
theorem resolve_default {defaults : Defaults α} (hexplicit : g.explicitOf n = .empty)
    (hplain : g.Plain n keys) (hdefaults : ∀ key ∈ keys, defaults.contains key = true) :
    ∃ config, g.resolve n keys defaults = .ok config ∧
      ∀ key ∈ keys, config.values.get? key = defaults.get? key := by
  have hnone : ∀ key ∈ (g.explicitOf n).keys, key ∈ keys := by
    rw [hexplicit]
    exact fun key hkey => absurd hkey List.not_mem_nil
  obtain ⟨config, hconfig⟩ := resolve_total.2 ⟨hnone, fun key hkey =>
    provided_of_default (hdefaults key hkey)⟩
  refine ⟨config, hconfig, fun key hkey => ?_⟩
  rw [resolve_values hconfig, if_pos hkey, provided, hexplicit, KeyMap.get?_empty, Option.none_or,
    nearestOverlay, hplain.nearestOverlays hkey, Option.none_or]

end Graph

end SignalGraph
