import SignalGraph.KeyMap
import SignalGraph.Text.Blank
import SignalGraph.Text.Case

namespace SignalGraph

/-- The names of the parts that can be logged. -/
def knownTargets : List String := ["gyrus", "gyrus-graph", "gyrus-runtime", "gyrus-config"]

/-- Names in their order, each once. -/
structure DebugTargets where
  names : KeyMap Unit

namespace DebugTargets

def empty : DebugTargets := ⟨.empty⟩

def add (t : DebugTargets) (name : String) : DebugTargets := ⟨t.names.insert name ()⟩

/-- Adds a name; blank ones are passed over and `all` stands for every known name. -/
def insert (t : DebugTargets) (name : String) : DebugTargets :=
  let name := Text.trim name
  if name.isEmpty then t
  else if name = "all" then knownTargets.foldl add t
  else t.add name

def insertAll (t : DebugTargets) (names : List String) : DebugTargets := names.foldl insert t

/-- What an argument asks to be logged in detail. -/
def argumentName? (argument : String) : Option String :=
  let mark := "--debug-".toList
  let cs := argument.toList
  if mark.isPrefixOf cs then some (String.ofList (cs.drop mark.length)) else none

def ofArguments (arguments : List String) : DebugTargets :=
  empty.insertAll (arguments.filterMap argumentName?)

/-- The names that the variable `GYRUS_DEBUG` lists with commas, besides those of the arguments. -/
def ofEnvironment (arguments : List String) (listed : Option String) : DebugTargets :=
  (ofArguments arguments).insertAll (listed.elim [] (·.splitOn ","))

def contains (t : DebugTargets) (name : String) : Bool := t.names.contains name

def size (t : DebugTargets) : Nat := t.names.size

/-- The filter that raises the names to the debug level above a base level. -/
def directives (t : DebugTargets) (level : String) : String :=
  ",".intercalate (t.names.keys.map (· ++ "=debug") ++ [Text.lowercase level])

end DebugTargets

end SignalGraph
