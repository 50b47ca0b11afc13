import SignalGraph.Graph.Basic
import SignalGraph.Config.Defaults

namespace SignalGraph.Graph

variable {α : Type}

/-- Nodes of a level that are not visited yet, each once, and the marks with them visited. -/
def visit : Array Bool → List Node → List Node × Array Bool
  | seen, [] => ([], seen)
  | seen, n :: ns =>
    if seen.getD n.index true then visit seen ns
    else
      let (fresh, seen) := visit (seen.setIfInBounds n.index true) ns
      (n :: fresh, seen)

/-- Adds the parameters among `keys` that a node's overlay has and that are not found yet. -/
def gather (g : Graph α) (keys : List String) (found : Params α) (n : Node) : Params α :=
  let overlay := g.overlayOf n
  keys.foldl (fun found key =>
    if found.contains key then found
    else
      match overlay.get? key with
      | some v => found.insert key v
      | none => found) found

/-- The walk from one level on. Levels lead towards smaller places, so there are no more of them than
the place of the node that the walk starts at. -/
def walk (g : Graph α) (keys : List String) :
    Nat → Array Bool → List Node → Params α → Params α
  | 0, _, _, found => found
  | depth + 1, seen, level, found =>
    if level.isEmpty then found
    else
      let found := level.foldl (g.gather keys) found
      if keys.all found.contains then found
      else
        let (next, seen) := visit seen (level.flatMap g.inputsOf)
        walk g keys depth seen next found

/-- For each key the value of the nearest overlay before the node that has it. The walk goes through the
inputs level by level, each level in the left-to-right order of the one before. -/
def nearestOverlays (g : Graph α) (n : Node) (keys : List String) : Params α :=
  if keys.isEmpty then .empty
  else
    let seen := (Array.replicate g.size false).setIfInBounds n.index true
    let (level, seen) := visit seen (g.inputsOf n)
    walk g keys n.index seen level .empty

def nearestOverlay (g : Graph α) (n : Node) (key : String) : Option (ParamValue α) :=
  (g.nearestOverlays n [key]).get? key

/-- The value of a parameter from the three places it can come from. -/
def choose (explicit inherited defaults : Params α) (kind key : String) :
    Except ParamError (String × ParamValue α) :=
  match (explicit.get? key).or ((inherited.get? key).or (defaults.get? key)) with
  | some v => .ok (key, v)
  | none => .error (.missingValue key kind)

/-- The configuration of a node that declares the parameters `configurable`. -/
def resolve (g : Graph α) (n : Node) (configurable : List String) (defaults : Defaults α) :
    Except ParamError (ResolvedConfig α) := do
  let kind := g.kindOf n
  let explicit := g.explicitOf n
  match explicit.keys.find? (!configurable.contains ·) with
  | some key => throw (.unknownParameter key kind)
  | none =>
    let inherited := g.nearestOverlays n (configurable.filter (!explicit.contains ·))
    let values ← configurable.mapM (choose explicit inherited defaults kind)
    return ⟨kind, .ofList values⟩

/-- An overlay may only set known parameters. -/
def checkOverlay (g : Graph α) (n : Node) (defaults : Defaults α) : Except ParamError Unit :=
  match (g.overlayOf n).keys.find? (!defaults.contains ·) with
  | some key => .error (.unknownParameter key (g.kindOf n))
  | none => .ok ()

end SignalGraph.Graph
