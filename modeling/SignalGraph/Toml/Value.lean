namespace SignalGraph.Toml

/-- What made a table: a header of its own, the path of another header, a dotted key, or braces. -/
inductive Origin where
  | header
  | path
  | dotted
  | inlined
deriving Repr, DecidableEq

inductive Value where
  | text (s : String)
  | int (i : Int)
  | float (x : Float)
  | bool (b : Bool)
  | date (text : String)
  | array (items : List Value)
  | table (origin : Origin) (entries : List (String × Value))
  /-- Tables under double-bracket headers of one name. -/
  | tables (items : List (List (String × Value)))

structure Table where
  origin : Origin
  entries : List (String × Value)

namespace Table

def get? (t : Table) (key : String) : Option Value := t.entries.lookup key

def contains (t : Table) (key : String) : Bool := (t.get? key).isSome

/-- The table with a key's value put in or replaced. -/
def insert (t : Table) (key : String) (v : Value) : Table :=
  { t with entries := (key, v) :: t.entries.filter (·.1 != key) }

/-- A change to the table at the end of a path, which is made where it is missing. Of tables in a
list the last one is meant. Dotted keys do not go into tables with a header. -/
def updateAt (dotted : Bool) : List String → (Table → Option Table) → Table → Option Table
  | [], f, t => f t
  | key :: path, f, t =>
    match t.get? key with
    | none => do
      let child ← updateAt dotted path f ⟨if dotted then .dotted else .path, []⟩
      return t.insert key (.table child.origin child.entries)
    | some (.table .inlined _) => none
    | some (.table origin entries) => do
      if dotted && origin = .header then failure
      let child ← updateAt dotted path f ⟨origin, entries⟩
      return t.insert key (.table child.origin child.entries)
    | some (.tables items) => do
      let last ← items.getLast?
      let child ← updateAt dotted path f ⟨.header, last⟩
      return t.insert key (.tables (items.dropLast ++ [child.entries]))
    | some _ => none

/-- Puts in a value under a dotted key. A key is set once, and only tables made by dotted keys can be
added to by them. -/
def put (path : List String) (key : String) (v : Value) : Table → Option Table :=
  updateAt true path fun t =>
    if decide (t.origin = .dotted) == path.isEmpty || t.contains key then none
    else some (t.insert key v)

/-- Entries as lines give them: the path before the last part of the key, that part, and the value. -/
abbrev Line := List String × String × Value

def putAll (t : Table) (lines : List Line) : Option Table :=
  lines.foldlM (fun t line => t.put line.1 line.2.1 line.2.2) t

end Table

end SignalGraph.Toml
