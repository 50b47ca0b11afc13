namespace SignalGraph

/-- The names from the root to a place. -/
abbrev Place := List String

/-- Files with their texts, directories without files, and the current directory. -/
structure Files where
  texts : List (Place × String)
  directories : List Place
  current : Place

namespace Files

/-- The names of a path. -/
def names (path : String) : List String := (path.toList.splitOn '/').map String.ofList

/-- The place that a name leads to from a directory. Two points lead up, and nothing or one point leads
nowhere. -/
def step (p : Place) (name : String) : Place :=
  if name = "" || name = "." then p
  else if name = ".." then p.dropLast
  else p ++ [name]

/-- A place given by a path from the root, with a directory wherever the path passes. -/
def place (path : String) : Place := (names path).foldl step []

def pathText (p : Place) : String := "/" ++ "/".intercalate p

/-- The path of a name in a directory. -/
def join (directory name : String) : String :=
  if directory = "/" then directory ++ name else directory ++ "/" ++ name

/-- The current directory and those above it, the nearest first. -/
def ancestors (f : Files) : List String :=
  (List.range (f.current.length + 1)).map fun k => pathText (f.current.take (f.current.length - k))

/-- Whether a place is a directory: one of its own, or above something. -/
def isDirectory (f : Files) (p : Place) : Bool :=
  p.isEmpty || (f.current :: f.directories).any p.isPrefixOf ||
    f.texts.any fun (q, _) => p != q && p.isPrefixOf q

/-- The place that names lead to from a directory, followed only where there is a directory. -/
def follow (f : Files) (p : Place) : List String → Option Place
  | [] => some p
  | name :: rest => if f.isDirectory p then follow f (step p name) rest else none

/-- The text of the file at a path. -/
def read? (f : Files) (path : String) : Option String := do
  if path.isEmpty then failure
  let start := if path.startsWith "/" then [] else f.current
  let p ← f.follow start (names path)
  if f.isDirectory p then failure
  f.texts.lookup p

end Files

end SignalGraph
