import SignalGraph.Proofs.Graph.Walks

namespace SignalGraph

theorem KeyMap.contains_insert {β : Type} (m : KeyMap β) (key other : String) (value : β) :
    (m.insert key value).contains other = true ↔ other = key ∨ m.contains other = true := by
  rw [contains, get?_insert, contains]
  split <;> simp_all

theorem KeyMap.contains_ofList {β : Type} {es : List (String × β)} {key : String} :
    (ofList es).contains key = true ↔ key ∈ es.map Prod.fst := by
  have hfold : ∀ (es : List (String × β)) (m : KeyMap β),
      (es.foldl (fun m e => m.insert e.1 e.2) m).contains key = true ↔
        key ∈ es.map Prod.fst ∨ m.contains key = true := by
    intro es
    induction es with
    | nil => simp
    | cons e es ih =>
      intro m
      rw [List.foldl_cons, ih, contains_insert, List.map_cons, List.mem_cons]
      tauto
  rw [ofList, hfold]
  simp [contains]

/-- A key that stands for one value only. -/
theorem KeyMap.get?_ofList {β : Type} {es : List (String × β)} {key : String} {v : β}
    (hmem : key ∈ es.map Prod.fst) (hall : ∀ e ∈ es, e.1 = key → e.2 = v) :
    (ofList es).get? key = some v := by
  have hfold : ∀ (es : List (String × β)) (m : KeyMap β), (∀ e ∈ es, e.1 = key → e.2 = v) →
      key ∈ es.map Prod.fst ∨ m.get? key = some v →
        (es.foldl (fun m e => m.insert e.1 e.2) m).get? key = some v := by
    intro es
    induction es with
    | nil => exact fun m _ h => h.resolve_left List.not_mem_nil
    | cons e es ih =>
      intro m hall hor
      refine ih _ (fun d hd => hall d (List.mem_cons_of_mem _ hd)) ?_
      rw [get?_insert]
      by_cases he : key = e.1
      · rw [if_pos he, hall e List.mem_cons_self he.symm]
        exact .inr rfl
      · rw [if_neg he]
        exact hor.imp_left fun hm => (List.mem_cons.1 hm).resolve_left he
  exact hfold es .empty hall (.inl hmem)

/-- The parameters of the built-in kinds. -/
def builtinKeys : List String := ["n_neurons", "radius", "neuron_type", "seed", "synapse"]

/-- Defaults that come from settings, with values set later. -/
inductive Defaults.Declared {α : Type} : Defaults α → Prop
  | ofSettings (b : BuildSettings α) : Declared (.ofSettings b)
  | insert {d : Defaults α} (key : String) (value : ParamValue α) :
    Declared d → Declared (d.insert key value)

/-- Every parameter of the built-in kinds has a default. -/
theorem Defaults.Declared.contains {α : Type} {d : Defaults α} (h : d.Declared) {key : String}
    (hk : key ∈ builtinKeys) : d.contains key = true := by
  induction h with
  | ofSettings b =>
    rw [Defaults.ofSettings, KeyMap.contains_ofList, BuildSettings.entries, List.map_append,
      List.mem_append]
    exact .inl hk
  | insert other value _ ih =>
    rw [KeyMap.contains_insert]
    exact .inr ih

namespace Graph

variable {α : Type} {g : Graph α} {n : Node} {defaults : Defaults α}

theorem checkOverlay_ok (h : ∀ key ∈ (g.overlayOf n).keys, defaults.contains key = true) :
    g.checkOverlay n defaults = .ok () := by
  have hnone : (g.overlayOf n).keys.find? (!defaults.contains ·) = none := by simpa using h
  rw [checkOverlay, hnone]

/-- The value that a parameter of a node comes to: its own, else the one of the nearest overlay, else
the default. -/
def provided (g : Graph α) (n : Node) (defaults : Defaults α) (key : String) :
    Option (ParamValue α) :=
  ((g.explicitOf n).get? key).or ((g.nearestOverlay n key).or (defaults.get? key))

/-- The nearest overlays are searched for the parameters only that the node does not have itself. -/
theorem choose_inherited {keys : List String} {key : String} (h : key ∈ keys) {kind : String}
    {entry : String × ParamValue α} :
    choose (g.explicitOf n)
        (g.nearestOverlays n (keys.filter (!(g.explicitOf n).contains ·))) defaults kind key =
      .ok entry ↔ ∃ v, g.provided n defaults key = some v ∧ entry = (key, v) := by
  have hprovided : ((g.explicitOf n).get? key).or
      (((g.nearestOverlays n (keys.filter (!(g.explicitOf n).contains ·))).get? key).or
        (defaults.get? key)) = g.provided n defaults key := by
    rw [provided]
    cases hexplicit : (g.explicitOf n).get? key with
    | some v => rfl
    | none =>
      rw [nearestOverlays_eq (List.mem_filter.2 ⟨h, by simp [KeyMap.contains, hexplicit]⟩)]
  rw [choose, hprovided]
  cases g.provided n defaults key <;> simp [eq_comm]

theorem resolve_eq_ok {keys : List String} {config : ResolvedConfig α} :
    g.resolve n keys defaults = .ok config ↔
      (∀ key ∈ (g.explicitOf n).keys, key ∈ keys) ∧ ∃ values,
        List.Forall₂ (fun key entry => ∃ v, g.provided n defaults key = some v ∧ entry = (key, v))
          keys values ∧ config = ⟨g.kindOf n, .ofList values⟩ := by
  have hkeys : (g.explicitOf n).keys.find? (!keys.contains ·) = none ↔
      ∀ key ∈ (g.explicitOf n).keys, key ∈ keys := by simp
  have hvalues : ∀ values, keys.mapM (choose (g.explicitOf n)
        (g.nearestOverlays n (keys.filter (!(g.explicitOf n).contains ·))) defaults
        (g.kindOf n)) = .ok values ↔ List.Forall₂
      (fun key entry => ∃ v, g.provided n defaults key = some v ∧ entry = (key, v)) keys values := by
    intro values
    rw [mapM_eq_ok]
    constructor
    · exact fun h => forall₂_imp_mem h fun key hkey _ => (choose_inherited hkey).1
    · exact fun h => forall₂_imp_mem h fun key hkey _ => (choose_inherited hkey).2
  rw [← hkeys]
  cases hfind : (g.explicitOf n).keys.find? (!keys.contains ·) with
  | some key =>
    simp only [resolve, hfind]
    simp
  | none =>
    simp only [resolve, hfind, bind_eq_ok, hvalues, pure_eq_ok, true_and]
    simp only [eq_comm]

/-- A node resolves its parameters when it is given none but those it declares and each of them has a
value. -/
theorem resolve_total {keys : List String} : (∃ config, g.resolve n keys defaults = .ok config) ↔
    (∀ key ∈ (g.explicitOf n).keys, key ∈ keys) ∧
      ∀ key ∈ keys, (g.provided n defaults key).isSome := by
  simp only [resolve_eq_ok]
  constructor
  · rintro ⟨_, hkeys, values, hvalues, -⟩
    refine ⟨hkeys, fun key hkey => ?_⟩
    obtain ⟨_, v, hv, -⟩ := forall₂_mem_left hvalues hkey
    exact Option.isSome_of_eq_some hv
  · rintro ⟨hkeys, hprovided⟩
    refine ⟨_, hkeys, keys.map fun key => (key, (g.provided n defaults key).getD (.bool false)), ?_, rfl⟩
    rw [List.forall₂_map_right_iff, List.forall₂_same]
    intro key hkey
    obtain ⟨v, hv⟩ := Option.isSome_iff_exists.1 (hprovided key hkey)
    exact ⟨v, hv, by rw [hv, Option.getD_some]⟩

theorem resolve_kind {keys : List String} {config : ResolvedConfig α}
    (h : g.resolve n keys defaults = .ok config) : config.kind = g.kindOf n := by
  obtain ⟨-, _, -, rfl⟩ := resolve_eq_ok.1 h
  rfl

theorem resolve_values {keys : List String} {config : ResolvedConfig α}
    (h : g.resolve n keys defaults = .ok config) (key : String) :
    config.values.get? key = if key ∈ keys then g.provided n defaults key else none := by
  obtain ⟨-, values, hvalues, rfl⟩ := resolve_eq_ok.1 h
  have hkeys : values.map Prod.fst = keys := by
    rw [forall₂_map_eq (f := Prod.fst) (g := id) (hvalues.flip.imp ?_), List.map_id]
    rintro _ _ ⟨_, -, rfl⟩
    rfl
  split
  · rename_i hkey
    obtain ⟨_, v, hv, -⟩ := forall₂_mem_left hvalues hkey
    rw [hv]
    refine KeyMap.get?_ofList (hkeys ▸ hkey) fun entry hentry hk => ?_
    obtain ⟨_, -, _, hw, rfl⟩ := forall₂_mem_right hvalues hentry
    subst hk
    exact Option.some.inj (hw.symm.trans hv)
  · rename_i hkey
    rw [← Option.not_isSome_iff_eq_none]
    exact fun hsome => hkey (hkeys ▸ KeyMap.contains_ofList.1 hsome)

theorem provided_of_default {key : String} (h : defaults.contains key = true) :
    (g.provided n defaults key).isSome := by
  obtain ⟨v, hv⟩ := Option.isSome_iff_exists.1 h
  rw [provided, hv]
  cases (g.explicitOf n).get? key <;> cases g.nearestOverlay n key <;> rfl

end Graph

end SignalGraph
