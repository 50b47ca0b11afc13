import Mathlib.Data.List.Nodup
import SignalGraph.Settings.Load

namespace SignalGraph

open KeyMap (lookup_cons_ite)

namespace Settings

/-- A text that can be read, or else the lower value. -/
def usable {β : Type} (read : String → Option β) (text : Option String) (lower : β) : β :=
  (text.bind read).getD lower

/-- The value of the highest tier with a usable text: an argument, then what the environment holds,
then the value without them. -/
def prevailing {β : Type} (read : String → Option β) (argument held : Option String) (lower : β) :
    β :=
  match argument.bind read, held.bind read with
  | some x, _ => x
  | none, some x => x
  | none, none => lower

theorem usable_usable {β : Type} (read : String → Option β) (argument held : Option String)
    (lower : β) :
    usable read argument (usable read held lower) = prevailing read argument held lower := by
  unfold usable prevailing
  cases argument.bind read <;> cases held.bind read <;> rfl

/-- The keys of the settings that can be overridden. -/
def overridable : List String :=
  ["backend", "dt", "time_axis", "log_level", "seed", "n_neurons", "neuron_type"]

/-- Each of these settings from the highest tier that has a usable text for it, and all others as they
are. The environment has no say in the time axis and the number of neurons. -/
def layered (environment arguments : Assignments) (s : Settings Float) : Settings Float where
  simulation := {
    backend := prevailing some (arguments.lookup "backend") (environment.lookup "GYRUS_BACKEND")
      s.simulation.backend
    dt := prevailing Text.readFloat (arguments.lookup "dt") (environment.lookup "GYRUS_DT")
      s.simulation.dt
    timeAxis := prevailing some (arguments.lookup "time_axis") none s.simulation.timeAxis }
  defaults := { s.defaults with
    neuronCount := prevailing Text.readInt (arguments.lookup "n_neurons") none
      s.defaults.neuronCount
    neuronType := prevailing some (arguments.lookup "neuron_type")
      (environment.lookup "GYRUS_NEURON_TYPE") s.defaults.neuronType
    seed := prevailing Text.readInt (arguments.lookup "seed") (environment.lookup "GYRUS_SEED")
      s.defaults.seed }
  logging := { s.logging with
    level := prevailing some (arguments.lookup "log_level") (environment.lookup "GYRUS_LOG_LEVEL")
      s.logging.level }

/-- The settings with all texts of one tier put in at once. -/
def overlaid (texts : Assignments) (s : Settings Float) : Settings Float where
  simulation := {
    backend := usable some (texts.lookup "backend") s.simulation.backend
    dt := usable Text.readFloat (texts.lookup "dt") s.simulation.dt
    timeAxis := usable some (texts.lookup "time_axis") s.simulation.timeAxis }
  defaults := { s.defaults with
    neuronCount := usable Text.readInt (texts.lookup "n_neurons") s.defaults.neuronCount
    neuronType := usable some (texts.lookup "neuron_type") s.defaults.neuronType
    seed := usable Text.readInt (texts.lookup "seed") s.defaults.seed }
  logging := { s.logging with
    level := usable some (texts.lookup "log_level") s.logging.level }

/-- Only the texts of the seven keys matter. -/
theorem overlaid_congr {texts texts' : Assignments}
    (h : ∀ key ∈ overridable, texts.lookup key = texts'.lookup key) (s : Settings Float) :
    s.overlaid texts = s.overlaid texts' := by
  simp only [overridable, List.mem_cons, List.not_mem_nil, or_false, forall_eq_or_imp,
    forall_eq] at h
  obtain ⟨h₁, h₂, h₃, h₄, h₅, h₆, h₇⟩ := h
  simp only [overlaid, h₁, h₂, h₃, h₄, h₅, h₆, h₇]

/-- A key without a setting changes nothing. -/
theorem override_other {key : String} (h : key ∉ overridable) (value : String)
    (s : Settings Float) : s.override key value = s := by
  unfold override
  split
  case h_8 => rfl
  all_goals simp [overridable] at h

/-- One override, and the texts of other keys after it, are all put in at once. -/
theorem overlaid_override {key value : String} {rest : Assignments} (h : rest.lookup key = none)
    (s : Settings Float) :
    (s.override key value).overlaid rest = s.overlaid ((key, value) :: rest) := by
  by_cases hkey : key ∈ overridable
  · simp only [overridable, List.mem_cons, List.not_mem_nil, or_false] at hkey
    rcases hkey with rfl | rfl | rfl | rfl | rfl | rfl | rfl <;>
      simp [override, overlaid, usable, lookup_cons_ite, h]
  · rw [override_other hkey]
    refine overlaid_congr (fun other hother => ?_) s
    rw [lookup_cons_ite, if_neg]
    rintro rfl
    exact hkey hother

/-- With each key at most once, the order of the arguments does not matter. -/
theorem overrideByArguments_eq {arguments : Assignments} (h : (arguments.map Prod.fst).Nodup)
    (s : Settings Float) : s.overrideByArguments arguments = s.overlaid arguments := by
  induction arguments generalizing s with
  | nil => rfl
  | cons a arguments ih =>
    obtain ⟨key, value⟩ := a
    obtain ⟨hkey, hrest⟩ := List.nodup_cons.1 h
    have hnone : arguments.lookup key = none := by
      refine List.lookup_eq_none_iff.2 fun p hp => bne_iff_ne.2 ?_
      rintro rfl
      exact hkey (List.mem_map.2 ⟨p, hp, rfl⟩)
    exact (ih hrest (s.override key value)).trans (overlaid_override hnone s)

/-- What the environment assigns to settings, given which variable is for which of them. -/
def assigned (environment : Assignments) (table : List (String × String)) : Assignments :=
  table.filterMap fun (name, key) => (environment.lookup name).map (key, ·)

theorem assigned_cons (environment : Assignments) (name key : String)
    (table : List (String × String)) :
    assigned environment ((name, key) :: table) =
      ((environment.lookup name).map (key, ·)).toList ++ assigned environment table := by
  cases h : environment.lookup name <;> simp [assigned, h]

theorem assigned_keys (environment : Assignments) (table : List (String × String)) :
    ((assigned environment table).map Prod.fst).Sublist (table.map Prod.snd) := by
  induction table with
  | nil => exact .slnil
  | cons d table ih =>
    obtain ⟨name, key⟩ := d
    rw [assigned_cons]
    cases environment.lookup name with
    | none => exact ih.cons key
    | some value => exact ih.cons_cons key

theorem lookup_assigned_cons (environment : Assignments) (name key other : String)
    (table : List (String × String)) :
    (assigned environment ((name, key) :: table)).lookup other =
      if other = key then
        (environment.lookup name).or ((assigned environment table).lookup other)
      else (assigned environment table).lookup other := by
  rw [assigned_cons]
  cases environment.lookup name with
  | none => simp
  | some value => simp [lookup_cons_ite]

theorem foldl_environment (environment : Assignments) (table : List (String × String))
    (s : Settings Float) :
    table.foldl (fun s (name, key) =>
      match environment.lookup name with
      | some value => s.override key value
      | none => s) s = s.overrideByArguments (assigned environment table) := by
  induction table generalizing s with
  | nil => rfl
  | cons d table ih =>
    obtain ⟨name, key⟩ := d
    rw [List.foldl_cons, ih, assigned_cons]
    dsimp only
    cases environment.lookup name <;> rfl

/-- The environment overrides as arguments with its texts would. -/
theorem overrideByEnvironment_eq (environment : Assignments) (s : Settings Float) :
    s.overrideByEnvironment environment = s.overlaid (assigned environment environmentKeys) := by
  have hkeys : ((assigned environment environmentKeys).map Prod.fst).Nodup :=
    (assigned_keys environment environmentKeys).nodup (by decide)
  exact (foldl_environment environment environmentKeys s).trans (overrideByArguments_eq hkeys s)

/-- The tier of the arguments over that of the environment. -/
theorem tiers_eq {arguments : Assignments} (h : (arguments.map Prod.fst).Nodup)
    (environment : Assignments) (s : Settings Float) :
    (s.overrideByEnvironment environment).overrideByArguments arguments =
      s.layered environment arguments := by
  rw [overrideByArguments_eq h, overrideByEnvironment_eq]
  simp only [overlaid, layered, usable_usable, environmentKeys, lookup_assigned_cons]
  simp [assigned]

theorem lookup_perm {arguments order : Assignments} (h : (arguments.map Prod.fst).Nodup)
    (hp : arguments.Perm order) (key : String) : arguments.lookup key = order.lookup key := by
  induction hp with
  | nil => rfl
  | cons a _ ih =>
    rw [lookup_cons_ite, lookup_cons_ite, ih (List.nodup_cons.1 h).2]
  | swap a b rest =>
    have hne : b.1 ≠ a.1 := fun he => (List.nodup_cons.1 h).1 (he ▸ List.mem_cons_self)
    simp only [lookup_cons_ite]
    split <;> split <;> simp_all
  | trans hp _ ih ih' => exact (ih h).trans (ih' ((hp.map Prod.fst).nodup_iff.1 h))

theorem lookup_filter (p : String → Bool) (arguments : Assignments) {key : String}
    (h : p key = true) : (arguments.filter (p ·.1)).lookup key = arguments.lookup key := by
  induction arguments with
  | nil => rfl
  | cons a arguments ih =>
    rw [List.filter_cons, lookup_cons_ite]
    split
    · rw [lookup_cons_ite, ih]
    · rename_i ha
      rw [ih, if_neg]
      rintro rfl
      exact ha h

/-- The settings, unless they are refused. -/
def validated (s : Settings Float) : Except SettingsError (Settings Float) :=
  s.check.map fun _ => s

theorem settle_eq {arguments : Assignments} (h : (arguments.map Prod.fst).Nodup)
    (environment : Assignments) (s : Settings Float) :
    settle environment arguments s = (s.layered environment arguments).validated := by
  rw [settle, tiers_eq h, validated]
  cases (s.layered environment arguments).check <;> rfl

theorem load_eq {files : Files} {environment arguments : Assignments} {given : Option String}
    {path text : String} {s : Settings Float}
    (hpath : given = some path ∨ given = none ∧ find files environment = .ok path)
    (hread : files.read? path = some text) (htext : ofText? text = some s) :
    load files environment arguments given = settle environment arguments s := by
  rcases hpath with rfl | ⟨rfl, hfind⟩
  · simp only [load, pure_bind, hread, htext]
  · simp only [load, hfind, bind, Except.bind, hread, htext]

/-- Nothing but a missing file keeps the search from finding one. -/
theorem find_error {files : Files} {environment : Assignments} {e : SettingsError}
    (h : find files environment = .error e) :
    (∃ path, e = .missingFile path) ∨ ∃ searched, e = .notFound searched := by
  unfold find at h
  split at h
  · split at h <;> cases h
    exact .inl ⟨_, rfl⟩
  · simp only at h
    split at h <;> cases h
    exact .inr ⟨_, rfl⟩

/-- Arguments come with each key at most once and in any order. Settings that are loaded are those of
the file with every overridable setting from the highest tier that has a usable text for it, if they
are accepted; without a file the standard settings are overridden in the same way. The order of the
arguments makes no difference, nor do arguments under other keys. -/
theorem overrides_prevail (files : Files) (environment : Assignments) {arguments : Assignments}
    (h : (arguments.map Prod.fst).Nodup) :
    (∀ (given : Option String) (path text : String) (s : Settings Float),
      (given = some path ∨ given = none ∧ find files environment = .ok path) →
      files.read? path = some text → ofText? text = some s →
        load files environment arguments given = (s.layered environment arguments).validated) ∧
    (∀ path, find files environment = .ok path →
      loadOrStandard files environment arguments = load files environment arguments none) ∧
    (∀ e, find files environment = .error e →
      loadOrStandard files environment arguments =
        (standard.layered environment arguments).validated) ∧
    ∀ s : Settings Float,
      (∀ order : Assignments, arguments.Perm order →
        s.layered environment order = s.layered environment arguments) ∧
      s.layered environment (arguments.filter (overridable.contains ·.1)) =
        s.layered environment arguments := by
  refine ⟨?_, ?_, ?_, fun s => ⟨?_, ?_⟩⟩
  · intro given path text s hpath hread htext
    rw [load_eq hpath hread htext, settle_eq h]
  · intro path hfind
    simp only [loadOrStandard, hfind, load]
    rfl
  · intro e hfind
    rw [← settle_eq h]
    rcases find_error hfind with ⟨path, rfl⟩ | ⟨searched, rfl⟩ <;>
      simp only [loadOrStandard, hfind]
  · intro order hp
    simp only [layered, lookup_perm h hp]
  · have hlookup : ∀ key ∈ overridable,
        (arguments.filter (overridable.contains ·.1)).lookup key = arguments.lookup key :=
      fun key hkey => lookup_filter _ arguments (List.contains_iff_mem.2 hkey)
    simp only [overridable, List.forall_mem_cons] at hlookup
    simp only [layered, overridable, hlookup]

/-- A file that sets a backend and a seed. -/
def plantText : String := "[simulation]\nbackend = \"gpu\"\n[defaults]\nseed = 3\n"

/-- The file stands in the directory above the current one. -/
def plantFiles : Files where
  texts := [(["plant", fileName], plantText)]
  directories := []
  current := ["plant", "line"]

/-- The backend is taken from the arguments, the seed from the environment since the argument is no
number, and the time step from the file. -/
theorem plantFiles_overridden :
    ([("seed", "many"), ("colour", "red"), ("backend", "cpu")].map Prod.fst).Nodup ∧
      ∃ s r, ofText? plantText = some s ∧ s.simulation.backend = "gpu" ∧ s.defaults.seed = 3 ∧
        load plantFiles [("GYRUS_SEED", "17"), ("GYRUS_BACKEND", "batched"), ("GYRUS_DT", "quick")]
          [("seed", "many"), ("colour", "red"), ("backend", "cpu")] none = validated r ∧
        r.simulation.backend = "cpu" ∧ r.defaults.seed = 17 ∧ r.simulation.dt = s.simulation.dt := by
  have hkeys : ([("seed", "many"), ("colour", "red"), ("backend", "cpu")].map Prod.fst).Nodup := by
    decide
  have hfind : find plantFiles
      [("GYRUS_SEED", "17"), ("GYRUS_BACKEND", "batched"), ("GYRUS_DT", "quick")] =
        .ok "/plant/gyrus_configuration.toml" := by decide +kernel
  have hread : plantFiles.read? "/plant/gyrus_configuration.toml" = some plantText := by
    decide +kernel
  have hfile : (ofText? plantText).map (fun s => (s.simulation.backend, s.defaults.seed)) =
      some ("gpu", 3) := by decide +kernel
  obtain ⟨s, hs, hfields⟩ := Option.map_eq_some_iff.1 hfile
  obtain ⟨hbackend, hseed⟩ := Prod.mk.inj hfields
  have hload := (overrides_prevail plantFiles
    [("GYRUS_SEED", "17"), ("GYRUS_BACKEND", "batched"), ("GYRUS_DT", "quick")] hkeys).1 none _ _ s
      (.inr ⟨rfl, hfind⟩) hread hs
  have hquick : Text.readFloat "quick" = none := by decide +kernel
  have hmany : Text.readInt "many" = none := by decide +kernel
  have hseventeen : Text.readInt "17" = some 17 := by decide +kernel
  refine ⟨hkeys, s, _, hs, hbackend, hseed, hload, rfl, ?_, ?_⟩
  · simp [layered, prevailing, lookup_cons_ite, hmany, hseventeen]
  · simp [layered, prevailing, lookup_cons_ite, hquick]

end Settings

end SignalGraph
