import SignalGraph.Settings.Check
import SignalGraph.Settings.Decode
import SignalGraph.Settings.Files
import SignalGraph.Settings.Override

namespace SignalGraph

inductive SettingsError where
  | missingFile (path : String)
  | notFound (searched : List String)
  | unreadable
  | malformed
  | rejected (problems : List SettingsProblem)
deriving Repr, DecidableEq

def SettingsError.message : SettingsError → String
  | missingFile path => s!"No gyrus_configuration.toml found (searched GYRUS_CONFIG_PATH={path})"
  | notFound searched =>
    "No gyrus_configuration.toml found (searched " ++ ", ".intercalate searched ++ ")"
  | unreadable => "Cannot read configuration"
  | malformed => "Malformed configuration"
  | rejected problems =>
    "Configuration rejected: " ++ "; ".intercalate (problems.map SettingsProblem.message)

namespace Settings

def fileName : String := "gyrus_configuration.toml"

/-- In how many directories the file is looked for. -/
def searchDepth : Nat := 6

def check {α : Type} [Scalar α] (s : Settings α) : Except SettingsError Unit :=
  if s.problems.isEmpty then .ok () else .error (.rejected s.problems)

/-- The path of the settings file. -/
def find (files : Files) (environment : Assignments) : Except SettingsError String :=
  match environment.lookup "GYRUS_CONFIG_PATH" with
  | some path => if (files.read? path).isSome then .ok path else .error (.missingFile path)
  | none =>
    let candidates := (files.ancestors.take searchDepth).map (Files.join · fileName)
    match candidates.find? fun path => (files.read? path).isSome with
    | some path => .ok path
    | none => .error (.notFound candidates)

/-- Settings with the overrides in place, if they are accepted. -/
def settle (environment arguments : Assignments) (s : Settings Float) :
    Except SettingsError (Settings Float) := do
  let s := (s.overrideByEnvironment environment).overrideByArguments arguments
  s.check
  return s

/-- The settings of the file at a path, or of the file that is found. -/
def load (files : Files) (environment arguments : Assignments) (path : Option String) :
    Except SettingsError (Settings Float) := do
  let path ←
    match path with
    | some path => pure path
    | none => find files environment
  match files.read? path with
  | none => throw .unreadable
  | some text =>
    match ofText? text with
    | none => throw .malformed
    | some s => settle environment arguments s

/-- The settings of the file that is found, or the standard ones if there is none. -/
def loadOrStandard (files : Files) (environment arguments : Assignments) :
    Except SettingsError (Settings Float) :=
  match find files environment with
  | .ok path => load files environment arguments (some path)
  | .error (.missingFile _) | .error (.notFound _) => settle environment arguments .standard
  | .error e => .error e

end Settings

end SignalGraph
