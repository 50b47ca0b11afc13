import SignalGraph.Proofs.Graph.Overlays
import SignalGraph.Proofs.Realize.Progress
import SignalGraph.Proofs.Steady.Runs
import SignalGraph.Scalar.Float
import SignalGraph.Settings.Check

namespace SignalGraph

open Realize Realization Stateful

variable {α : Type} [Scalar α]

namespace Settings

omit [Scalar α] in
theorem requireName_eq_nil {field value : String} {allowed : List String} :
    requireName field value allowed = [] ↔ Text.lowercase value ∈ allowed := by
  unfold requireName
  split <;> simp_all

omit [Scalar α] in
theorem require_eq_nil {holds : Bool} {field requirement : String} :
    require holds field requirement = [] ↔ holds = true := by
  unfold require
  split <;> simp_all

/-- What the settings are checked for, their logging section apart. -/
structure Sound (s : Settings α) : Prop where
  backend : Text.lowercase s.simulation.backend ∈ ["cpu", "reference", "batched", "gpu"]
  timeAxis : Text.lowercase s.simulation.timeAxis ∈ ["leading", "trailing"]
  timeStep : Scalar.less Scalar.zero s.simulation.dt = true
  neuronCount : 0 < s.defaults.neuronCount
  radius : Scalar.less Scalar.zero s.defaults.radius = true
  seed : 0 ≤ s.defaults.seed
  synapse : Scalar.atMost Scalar.zero s.defaults.synapse = true
  neuronType : Text.lowercase s.defaults.neuronType ∈ ["direct", "lif_rate"]

theorem sound_of_accepted {s : Settings α} (h : s.problems = []) : s.Sound := by
  simp only [problems, List.append_eq_nil_iff, requireName_eq_nil, require_eq_nil,
    decide_eq_true_eq] at h
  obtain ⟨⟨⟨⟨⟨⟨⟨⟨⟨backend, timeAxis⟩, timeStep⟩, neuronCount⟩, radius⟩, seed⟩, synapse⟩, neuronType⟩,
    -⟩, -⟩ := h
  exact ⟨backend, timeAxis, timeStep, neuronCount, radius, seed, synapse, neuronType⟩

end Settings

/-- The names of the settings are those that backends, axes and neurons are known by. -/
theorem Backend.ofText?_total {name : String}
    (h : Text.lowercase name ∈ ["cpu", "reference", "batched", "gpu"]) :
    ∃ b, Backend.ofText? name = .ok b := by
  simp only [List.mem_cons, List.not_mem_nil, or_false] at h
  rcases h with h | h | h | h <;> simp [ofText?, h]

theorem TimeAxis.ofText?_total {name : String} (h : Text.lowercase name ∈ ["leading", "trailing"]) :
    ∃ axis, TimeAxis.ofText? name = .ok axis := by
  simp only [List.mem_cons, List.not_mem_nil, or_false] at h
  rcases h with h | h <;> simp [ofText?, h]

theorem NeuronType.ofText?_total {name : String} (h : Text.lowercase name ∈ ["direct", "lif_rate"]) :
    ∃ type, NeuronType.ofText? name = .ok type := by
  simp only [List.mem_cons, List.not_mem_nil, or_false] at h
  rcases h with h | h <;> simp [ofText?, h]

namespace RunOptions

/-- Accepted settings give options, with their time step. -/
theorem ofSettings_total {s : Settings α} (h : s.Sound) :
    ∃ o, ofSettings s.simulation = .ok o ∧ o.dt = s.simulation.dt := by
  obtain ⟨b, hb⟩ := Backend.ofText?_total h.backend
  obtain ⟨axis, haxis⟩ := TimeAxis.ofText?_total h.timeAxis
  refine ⟨⟨standard.duration, s.simulation.dt, b, axis⟩, ?_, rfl⟩
  simp only [ofSettings, hb, haxis]
  rfl

end RunOptions

namespace BuildSettings

variable {b : BuildSettings α}

omit [Scalar α] in
/-- A parameter of the built-in kinds has the value of its own field. -/
theorem get?_ofSettings (hextra : ∀ key ∈ b.extra.keys, key ∉ builtinKeys) {key : String}
    {v : ParamValue α} (hkey : key ∈ builtinKeys) (h : (key, v) ∈ b.entries) :
    (Defaults.ofSettings b).get? key = some v := by
  refine KeyMap.get?_ofList (List.mem_map.2 ⟨_, h, rfl⟩) fun e he hek => ?_
  have hnot : ∀ d ∈ b.extra.entries, d.1 ≠ key := by
    rintro d hd rfl
    exact hextra d.1 (List.mem_map.2 ⟨d, hd, rfl⟩) hkey
  simp only [entries, List.mem_append] at h he
  have h := h.resolve_right fun hd => hnot _ hd rfl
  have he := he.resolve_right fun hd => hnot _ hd hek
  simp only [List.mem_cons, List.not_mem_nil, or_false] at h he
  grind

/-- Whether the number among the parameters of a kind is finite. -/
def finiteFor (b : BuildSettings α) : BuiltinKind α → Bool
  | .decode .. => Scalar.isFinite b.radius
  | .filter => Scalar.isFinite b.synapse
  | _ => true

/-- Under the defaults of accepted settings, the parameters of a kind are in their ranges when its
number is finite. -/
theorem inRange_eq {s : Settings α} (h : s.Sound)
    (hextra : ∀ key ∈ s.defaults.extra.keys, key ∉ builtinKeys) {kind : BuiltinKind α}
    {config : ResolvedConfig α} (hkind : config.kind = kind.element.name)
    (hvalues : ∀ key ∈ kind.element.configurable,
      config.values.get? key = (Defaults.ofSettings s.defaults).get? key) :
    config.inRange = s.defaults.finiteFor kind := by
  have hget {key : String} {v : ParamValue α} (hkey : key ∈ kind.element.configurable)
      (hv : (key, v) ∈ s.defaults.entries) : config.values.get? key = some v :=
    (hvalues key hkey).trans (get?_ofSettings hextra (kind.configurable_subset hkey) hv)
  rw [ResolvedConfig.inRange, hkind]
  cases kind with
  | decode function size =>
    have hreads : ∀ key ∈ ["n_neurons", "radius", "neuron_type", "seed"],
        key ∈ (Element.decode (α := α) function size).configurable := fun _ hk => hk
    have hcount : config.values.get? "n_neurons" = some (.int s.defaults.neuronCount) :=
      hget (hreads _ (by simp)) (by simp [entries])
    have hradius : config.values.get? "radius" = some (.float s.defaults.radius) :=
      hget (hreads _ (by simp)) (by simp [entries])
    have hname : config.values.get? "neuron_type" = some (.text s.defaults.neuronType) :=
      hget (hreads _ (by simp)) (by simp [entries])
    have hseed : config.values.get? "seed" = some (.int s.defaults.seed) :=
      hget (hreads _ (by simp)) (by simp [entries])
    obtain ⟨type, htype⟩ := NeuronType.ofText?_total h.neuronType
    have hpositive := h.neuronCount
    change config.decodes = Scalar.isFinite s.defaults.radius
    simp [ResolvedConfig.decodes, hcount, hradius, hname, hseed, htype, ParamValue.toScalar?, h.radius,
      h.seed, Int.le_of_lt hpositive, Int.ne_of_gt hpositive]
  | filter =>
    have hsynapse : config.values.get? "synapse" = some (.float s.defaults.synapse) :=
      hget (List.mem_singleton_self _) (by simp [entries])
    change config.smooths = Scalar.isFinite s.defaults.synapse
    simp [ResolvedConfig.smooths, hsynapse, ParamValue.toScalar?, h.synapse]
  | _ => rfl

end BuildSettings

/-- A node that is given no parameters, and lies behind no overlay with those of its kind. -/
structure Graph.Untuned (g : Graph α) (n : Node) (rec : NodeRecord α) (kind : BuiltinKind α) :
    Prop where
  record_eq : g.record? n = some rec
  kind_eq : rec.kind = .element kind.element
  overlay : rec.overlay = .empty
  explicit : rec.explicit = .empty
  plain : g.Plain n kind.element.configurable

/-- The parameters of such a node are those of the settings, so its number decides. -/
theorem Graph.Untuned.accepts_iff {g : Graph α} {n : Node} {rec : NodeRecord α} {kind : BuiltinKind α}
    (hn : g.Untuned n rec kind) {s : Settings α} (hs : s.Sound)
    (hextra : ∀ key ∈ s.defaults.extra.keys, key ∉ builtinKeys) :
    g.Accepts (.ofSettings s.defaults) n ↔ s.defaults.finiteFor kind = true := by
  have hoverlay : g.overlayOf n = .empty := by
    rw [overlayOf, hn.record_eq]
    exact hn.overlay
  have hexplicit : g.explicitOf n = .empty := by
    rw [explicitOf, hn.record_eq]
    exact hn.explicit
  have hname : g.kindOf n = kind.element.name := by
    rw [kindOf, hn.record_eq]
    simp only [Option.elim_some, hn.kind_eq, NodeKind.name]
  obtain ⟨config, hres, hvalues⟩ := resolve_default hexplicit hn.plain fun key hkey =>
    (Defaults.Declared.ofSettings s.defaults).contains (kind.configurable_subset hkey)
  have hkind : config.kind = kind.element.name := (resolve_kind hres).trans hname
  have hrange := BuildSettings.inRange_eq hs hextra hkind hvalues
  constructor
  · intro haccepts
    obtain ⟨-, config', hres', hrange'⟩ := haccepts rec _ hn.record_eq hn.kind_eq
    cases hres.symm.trans hres'
    exact hrange.symm.trans hrange'
  · intro hfinite rec' e hr hk
    cases hn.record_eq.symm.trans hr
    cases hn.kind_eq.symm.trans hk
    refine ⟨checkOverlay_ok ?_, config, hres, hrange.trans hfinite⟩
    rw [hoverlay]
    exact fun key hkey => absurd hkey List.not_mem_nil

/-- Accepted settings, which leave the parameters of the built-in kinds to their own fields, give
options for a run. The options are in order for every duration that is, exactly when the time step is
finite. Under the defaults of the settings a node of a built-in kind that is not realized yet, with
inputs that can be realized, is realized exactly when the number that its kind takes from them is
finite: the radius for a decoded function, the time constant for a filter, none for other kinds. -/
theorem accepted_runnable {s : Settings α} (hs : s.problems = [])
    (hextra : ∀ key ∈ s.defaults.extra.keys, key ∉ builtinKeys) :
    (∃ o, RunOptions.ofSettings s.simulation = .ok o ∧ ∀ duration : α,
      Scalar.atMost Scalar.zero duration = true → Scalar.isFinite duration = true →
        ((RunOptions.check { o with duration } = .ok ()) ↔
          Scalar.isFinite s.simulation.dt = true)) ∧
    ∀ (g : Graph α) (r : Realization α (Network α)) (n : Node) (rec : NodeRecord α)
      (kind : BuiltinKind α), Session (.ofSettings s.defaults) g r → g.Untuned n rec kind →
        (∃ ws r₁, (rec.inputs.mapM (make Target.network g (.ofSettings s.defaults))).run r =
          (.ok ws, r₁)) →
          ((∃ h r', (make Target.network g (.ofSettings s.defaults) n).run r = (.ok h, r')) ↔
            (∃ h, r.built n = some h) ∨ s.defaults.finiteFor kind = true) := by
  have hsound := Settings.sound_of_accepted hs
  refine ⟨?_, fun g r n rec kind hsession hn hin => ?_⟩
  · obtain ⟨o, ho, hdt⟩ := RunOptions.ofSettings_total hsound
    refine ⟨o, ho, fun duration hnonnegative hfinite => ?_⟩
    rw [RunOptions.check_eq_ok]
    simp only [hdt, hsound.timeStep, hnonnegative, hfinite, true_and, and_true]
  · obtain ⟨hsettled, opens, hg⟩ := hsession.settled
    rw [make_element_iff hg hsettled hn.record_eq hn.kind_eq hin, hn.accepts_iff hsound hextra]

/-- A source, a filter of it and a function of that. -/
def smoothedSource : Build α Node := do
  let u ← Build.stimulus (.constant [Scalar.one])
  let y ← Build.filter u none
  Build.decode y (fun v => v) none .empty

def smoothedGraph (α : Type) [Scalar α] : Graph α := smoothedSource.graph

theorem smoothedGraph_grown : (smoothedGraph α).Grown Element.IsBuiltin [] := by
  have hall : ∀ k : BuiltinKind α, k.element.IsBuiltin := fun k => ⟨k, rfl⟩
  have hk : Build.Keeps Element.IsBuiltin (smoothedSource (α := α)) :=
    (Build.keeps_stimulus hall _).bind fun u => (Build.keeps_filter hall u _).bind fun y =>
      Build.keeps_decode hall y _ _ _
  exact hk.grown

/-- Settings with names in capitals, rate neurons, no smoothing and a parameter of another kind. -/
def loudSettings : Settings ℚ :=
  ⟨⟨"GPU", 1 / 1000, "Leading"⟩, ⟨50, 2, "LIF_Rate", 7, 0, KeyMap.empty.insert "gain" (.int 3)⟩,
    .standard⟩

theorem loudSettings_runnable :
    loudSettings.problems = [] ∧ (∀ key ∈ loudSettings.defaults.extra.keys, key ∉ builtinKeys) ∧
      (∃ o, RunOptions.ofSettings loudSettings.simulation = .ok o ∧
        RunOptions.check { o with duration := 3 } = .ok ()) ∧
      ∃ rec, (smoothedGraph ℚ).Untuned ⟨2⟩ rec (.decode (fun v => v) 1) ∧
        ∃ h r', (make Target.network (smoothedGraph ℚ) (.ofSettings loudSettings.defaults) ⟨2⟩).run
          (.start (.empty none)) = (.ok h, r') := by
  have hs : loudSettings.problems = [] := by decide +kernel
  have hextra : ∀ key ∈ loudSettings.defaults.extra.keys, key ∉ builtinKeys := by decide +kernel
  obtain ⟨⟨o, ho, hcheck⟩, hmake⟩ := accepted_runnable hs hextra
  have hn : (smoothedGraph ℚ).Untuned ⟨2⟩ _ (.decode (fun v => v) 1) :=
    ⟨rfl, rfl, rfl, rfl, .of_all (by decide +kernel)⟩
  have hinputs : ∃ ws r₁, (([⟨1⟩] : List Node).mapM (make Target.network (smoothedGraph ℚ)
      (.ofSettings loudSettings.defaults))).run (.start (.empty none)) = (.ok ws, r₁) :=
    ⟨[⟨1, 1⟩], _, Prod.ext (by decide +kernel) rfl⟩
  have hstart : Session (.ofSettings loudSettings.defaults) (smoothedGraph ℚ)
      (.start (.empty none)) := .start smoothedGraph_grown (.empty none)
  refine ⟨hs, hextra, ⟨o, ho, (hcheck 3 (by decide +kernel) rfl).2 rfl⟩, _, hn, ?_⟩
  exact (hmake _ _ _ _ _ hstart hn hinputs).2 (.inr rfl)

/-- Settings with an infinite time constant. -/
def endlessSettings : Settings Float :=
  { Settings.standard with defaults := { BuildSettings.standard with synapse := 1 / 0 } }

/-- The settings are accepted, and a filter of a source is refused. -/
theorem endlessSettings_refused :
    endlessSettings.problems = [] ∧ (∀ key ∈ endlessSettings.defaults.extra.keys, key ∉ builtinKeys) ∧
      Session (.ofSettings endlessSettings.defaults) (smoothedGraph Float) (.start (.empty none)) ∧
      (∃ rec, (smoothedGraph Float).Untuned ⟨1⟩ rec .filter ∧ rec.inputs = [⟨0⟩]) ∧
      (make Target.network (smoothedGraph Float) (.ofSettings endlessSettings.defaults) ⟨0⟩ |>.run
        (.start (.empty none))).1 = .ok ⟨0, 1⟩ ∧
      (make Target.network (smoothedGraph Float) (.ofSettings endlessSettings.defaults) ⟨1⟩ |>.run
        (.start (.empty none))).1 =
          .error (.network (.invalidParameters (.filterTime "inf"))) :=
  ⟨by decide +kernel, by decide +kernel, .start smoothedGraph_grown (.empty none),
    ⟨_, ⟨rfl, rfl, rfl, rfl, .of_all (by decide +kernel)⟩, rfl⟩, by decide +kernel,
    by decide +kernel⟩

end SignalGraph
