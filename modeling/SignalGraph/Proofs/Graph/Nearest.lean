import SignalGraph.Proofs.Arithmetic.Rational
import SignalGraph.Proofs.Graph.Construction
import SignalGraph.Proofs.Graph.Overlays

namespace SignalGraph

namespace Graph

variable {α : Type} {g : Graph α} {n m k : Node} {is js : List Nat} {key : String}
  {v : ParamValue α}

/-- The least route from a node to another. -/
structure Leads (g : Graph α) (n m : Node) (is : List Nat) : Prop where
  follows : g.follow n is = some m
  least : ∀ js, g.follow n js = some m → ¬js.Shortlex (· < ·) is

/-- The node whose overlay a parameter is taken from: the least route to it is less than the one to
any other node before `n` that sets the parameter. -/
structure Nearest (g : Graph α) (n : Node) (key : String) (m : Node) : Prop where
  other : m ≠ n
  sets : (g.overlayOf m).contains key = true
  route : ∃ is, g.Leads n m is ∧ ∀ k js, k ≠ n → k ≠ m → (g.overlayOf k).contains key = true →
    g.Leads n k js → is.Shortlex (· < ·) js

theorem Nearest.unique (h : g.Nearest n key m) (h' : g.Nearest n key k) : m = k := by
  obtain ⟨is, his, hless⟩ := h.route
  obtain ⟨js, hjs, hless'⟩ := h'.route
  by_contra hne
  have hlt := hless k js h'.other (Ne.symm hne) h'.sets hjs
  have hgt := hless' m is h.other hne h.sets his
  exact (List.Shortlex.wf Nat.lt_wfRel.wf).asymmetric is js hlt hgt

/-- The search through all routes comes to the nearest overlay. -/
theorem nearest_of_upstream
    (h : (g.upstream n).findSome? (fun m => (g.overlayOf m).get? key) = some v) :
    ∃ m, g.Nearest n key m ∧ (g.overlayOf m).get? key = some v := by
  obtain ⟨is, m, hne, hm, hv, hleast⟩ := upstream_findSome?.1 h
  have hother : m ≠ n := by
    rintro rfl
    exact hne (follow_self hm)
  have hbefore : ∀ js k, g.follow n js = some k → k ≠ n →
      (g.overlayOf k).contains key = true → ¬js.Shortlex (· < ·) is := by
    intro js k hk hkn hsets hlt
    rw [KeyMap.contains, hleast js k (follow_ne hk hkn) hk hlt] at hsets
    cases hsets
  have hsets : (g.overlayOf m).contains key = true := Option.isSome_of_eq_some hv
  refine ⟨m, ⟨hother, hsets, is, ⟨hm, fun js hjs => hbefore js m hjs hother hsets⟩, ?_⟩, hv⟩
  intro k js hkn hkm hksets hjs
  rcases trichotomous_of (List.Shortlex (· < ·)) is js with hlt | heq | hlt
  · exact hlt
  · subst heq
    exact absurd (Option.some.inj (hjs.follows.symm.trans hm)) hkm
  · exact absurd hlt (hbefore js k hjs.follows hkn hksets)

theorem upstream_isSome :
    ((g.upstream n).findSome? (fun m => (g.overlayOf m).get? key)).isSome ↔
      ∃ m is, m ≠ n ∧ g.follow n is = some m ∧ (g.overlayOf m).contains key = true := by
  rw [List.findSome?_isSome_iff]
  constructor
  · rintro ⟨m, hm, hsets⟩
    obtain ⟨is, hne, hm⟩ := mem_upstream.1 hm
    refine ⟨m, is, ?_, hm, hsets⟩
    rintro rfl
    exact hne (follow_self hm)
  · rintro ⟨m, is, hne, hm, hsets⟩
    exact ⟨m, mem_upstream.2 ⟨is, follow_ne hm hne, hm⟩, hsets⟩

theorem nearestOverlay_eq_upstream :
    g.nearestOverlay n key = (g.upstream n).findSome? fun m => (g.overlayOf m).get? key := by
  have hoffered : g.offered [key] key = fun m => (g.overlayOf m).get? key :=
    funext fun m => if_pos (List.mem_singleton_self key)
  rw [nearestOverlay, nearestOverlays_get?, hoffered]

theorem nearestOverlay_eq_some : g.nearestOverlay n key = some v ↔
    ∃ m, g.Nearest n key m ∧ (g.overlayOf m).get? key = some v := by
  rw [nearestOverlay_eq_upstream]
  constructor
  · exact nearest_of_upstream
  · rintro ⟨m, hm, hv⟩
    obtain ⟨is, his, -⟩ := hm.route
    obtain ⟨w, hw⟩ := Option.isSome_iff_exists.1
      (upstream_isSome.2 ⟨m, is, hm.other, his.follows, hm.sets⟩)
    obtain ⟨k, hk, hkw⟩ := nearest_of_upstream hw
    rw [hw, ← hkw, ← hm.unique hk, hv]

theorem nearestOverlay_eq_none : g.nearestOverlay n key = none ↔
    ∀ m is, m ≠ n → g.follow n is = some m → (g.overlayOf m).contains key = false := by
  rw [← Option.not_isSome_iff_eq_none, nearestOverlay_eq_upstream, upstream_isSome]
  simp only [not_exists, not_and, Bool.not_eq_true]

/-- The value that a node has for a parameter, and where it comes from. -/
inductive Provides (g : Graph α) (n : Node) (defaults : Defaults α) (key : String) :
    ParamValue α → Prop
  | explicit {v : ParamValue α} : (g.explicitOf n).get? key = some v → Provides g n defaults key v
  | inherited {v : ParamValue α} {m : Node} : (g.explicitOf n).get? key = none →
    g.Nearest n key m → (g.overlayOf m).get? key = some v → Provides g n defaults key v
  | default {v : ParamValue α} : (g.explicitOf n).get? key = none → (∀ m, ¬g.Nearest n key m) →
    defaults.get? key = some v → Provides g n defaults key v

theorem provided_eq_some {defaults : Defaults α} :
    g.provided n defaults key = some v ↔ g.Provides n defaults key v := by
  rw [provided]
  constructor
  · intro h
    cases hexplicit : (g.explicitOf n).get? key with
    | some w =>
      rw [hexplicit] at h
      exact .explicit (hexplicit.trans h)
    | none =>
      rw [hexplicit, Option.none_or] at h
      cases hnear : g.nearestOverlay n key with
      | some w =>
        rw [hnear] at h
        obtain ⟨m, hm, hv⟩ := nearestOverlay_eq_some.1 (hnear.trans h)
        exact .inherited hexplicit hm hv
      | none =>
        rw [hnear, Option.none_or] at h
        refine .default hexplicit (fun m hm => ?_) h
        obtain ⟨is, his, -⟩ := hm.route
        have hnot := nearestOverlay_eq_none.1 hnear m is hm.other his.follows
        exact absurd (hnot.symm.trans hm.sets) Bool.false_ne_true
  · rintro (hv | ⟨hexplicit, hm, hv⟩ | ⟨hexplicit, hnot, hv⟩)
    · rw [hv, Option.some_or]
    · rw [hexplicit, Option.none_or, nearestOverlay_eq_some.2 ⟨_, hm, hv⟩, Option.some_or]
    · have hnear : g.nearestOverlay n key = none := by
        by_contra hsome
        obtain ⟨w, hw⟩ := Option.ne_none_iff_exists'.1 hsome
        obtain ⟨m, hm, -⟩ := nearestOverlay_eq_some.1 hw
        exact hnot m hm
      rw [hexplicit, hnear, Option.none_or, Option.none_or, hv]

theorem provided_isSome {defaults : Defaults α} : (g.provided n defaults key).isSome ↔
    ¬((g.explicitOf n).contains key = false ∧
      (∀ m is, m ≠ n → g.follow n is = some m → (g.overlayOf m).contains key = false) ∧
      defaults.contains key = false) := by
  rw [← nearestOverlay_eq_none, provided, KeyMap.contains, KeyMap.contains]
  cases (g.explicitOf n).get? key <;> cases g.nearestOverlay n key <;>
    cases defaults.get? key <;> simp

/-- A search for some keys finds those that the overlay of another node before `n` sets, and the value
in the overlay that lies nearest; it does not matter which other keys the search is for. A node has
for each of its parameters its own value, else the one of the nearest overlay, else the default. It
resolves them unless it is given one that it does not declare, or one has none of the three. -/
theorem nearest_resolution (g : Graph α) (n : Node) (keys : List String) (defaults : Defaults α) :
    (∀ key, (g.nearestOverlays n keys).contains key = true ↔ key ∈ keys ∧
      ∃ m is, m ≠ n ∧ g.follow n is = some m ∧ (g.overlayOf m).contains key = true) ∧
    (∀ key v, (g.nearestOverlays n keys).get? key = some v ↔ key ∈ keys ∧
      ∃ m, g.Nearest n key m ∧ (g.overlayOf m).get? key = some v) ∧
    (∀ key ∈ keys, (g.nearestOverlays n keys).get? key = g.nearestOverlay n key) ∧
    (∀ config, g.resolve n keys defaults = .ok config → config.kind = g.kindOf n ∧
      ∀ key v, config.values.get? key = some v ↔ key ∈ keys ∧ g.Provides n defaults key v) ∧
    ((∃ e, g.resolve n keys defaults = .error e) ↔
      (∃ key ∈ (g.explicitOf n).keys, key ∉ keys) ∨
      ∃ key ∈ keys, (g.explicitOf n).contains key = false ∧
        (∀ m is, m ≠ n → g.follow n is = some m → (g.overlayOf m).contains key = false) ∧
        defaults.contains key = false) := by
  have hget : ∀ key, (g.nearestOverlays n keys).get? key =
      if key ∈ keys then g.nearestOverlay n key else none := by
    intro key
    split
    · rename_i hkey
      exact nearestOverlays_eq hkey
    · rename_i hkey
      rw [nearestOverlays_get?, List.findSome?_eq_none_iff]
      exact fun m _ => if_neg hkey
  refine ⟨fun key => ?_, fun key v => ?_, fun key hkey => nearestOverlays_eq hkey, ?_, ?_⟩
  · rw [KeyMap.contains, hget, nearestOverlay_eq_upstream, ← upstream_isSome]
    split <;> simp_all
  · rw [hget, ← nearestOverlay_eq_some]
    split <;> simp_all
  · intro config hconfig
    refine ⟨resolve_kind hconfig, fun key v => ?_⟩
    rw [resolve_values hconfig, ← provided_eq_some]
    split <;> simp_all
  · have herror : (∃ e, g.resolve n keys defaults = .error e) ↔
        ¬∃ config, g.resolve n keys defaults = .ok config := by
      cases g.resolve n keys defaults <;> simp
    simp only [herror, resolve_total, provided_isSome]
    grind

end Graph

/-- Two overlays that set one parameter, behind them another overlay, and a function of a bundle that
takes one of the two twice. -/
def sharedOverlays {α : Type} [Scalar α] : Build α Node := do
  let u ← Build.stimulus (.constant [Scalar.one])
  let far ← Build.configure u ((KeyMap.empty.insert "seed" (.int 5)).insert "radius" (.int 3))
  let left ← Build.configure far (KeyMap.empty.insert "radius" (.int 1))
  let right ← Build.configure far (KeyMap.empty.insert "radius" (.int 2))
  let joined ← Build.bundle [right, left, right]
  Build.decode joined (fun v => v) none (KeyMap.empty.insert "n_neurons" (.int 7))

theorem sharedOverlays_nearest :
    (∃ m, (sharedOverlays (α := ℚ)).graph.Nearest ⟨5⟩ "radius" m ∧
      ((sharedOverlays (α := ℚ)).graph.overlayOf m).get? "radius" = some (.int 2)) ∧
    ∃ config, (sharedOverlays (α := ℚ)).graph.resolve ⟨5⟩ builtinKeys .standard = .ok config ∧
      (sharedOverlays (α := ℚ)).graph.Provides ⟨5⟩ .standard "seed" (.int 5) ∧
      (sharedOverlays (α := ℚ)).graph.Provides ⟨5⟩ .standard "n_neurons" (.int 7) ∧
      (sharedOverlays (α := ℚ)).graph.Provides ⟨5⟩ .standard "neuron_type" (.text "direct") := by
  obtain ⟨-, hnearest, -, hresolve, -⟩ :=
    Graph.nearest_resolution (sharedOverlays (α := ℚ)).graph ⟨5⟩ builtinKeys .standard
  obtain ⟨-, hvalues⟩ := hresolve _ rfl
  refine ⟨((hnearest "radius" _).1 rfl).2, _, rfl, ?_, ?_, ?_⟩
  · exact ((hvalues "seed" _).1 rfl).2
  · exact ((hvalues "n_neurons" _).1 rfl).2
  · exact ((hvalues "neuron_type" _).1 rfl).2

end SignalGraph
