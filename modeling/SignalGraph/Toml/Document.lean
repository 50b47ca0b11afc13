import SignalGraph.Toml.Number

namespace SignalGraph.Toml

namespace Scan

/-- A value on one line that holds no other values. -/
def simpleValue : Scan Value := do
  match ← peek with
  | some '"' | some '\'' => .text <$> text
  | some 't' => do
    word "true"
    return .bool true
  | some 'f' => do
    word "false"
    return .bool false
  | _ => date <|> number

/-- The values between square brackets, on any number of lines. A comma may stand behind the last. -/
def items (item : Scan Value) : Nat → Scan (List Value)
  | 0 => failure
  | fuel + 1 => do
    skipLines
    if ← accept ']' then return []
    let v ← item
    skipLines
    if ← accept ',' then return v :: (← items item fuel)
    char ']'
    return [v]

/-- A key and its value. -/
def line (item : Scan Value) : Scan Table.Line := do
  let (path, last) ← key
  char '='
  spaces
  let v ← item
  return (path, last, v)

/-- The lines of a table in braces. -/
def inlineLines (item : Scan Value) : Scan (List Table.Line) := do
  spaces
  if ← accept '\x7d' then return []
  let entry : Scan Table.Line := do
    let l ← line item
    spaces
    return l
  let lines ← separated entry ',' (← get).length
  char '\x7d'
  return lines

/-- A value with others inside it up to a depth. -/
def value : Nat → Scan Value
  | 0 => simpleValue
  | depth + 1 => do
    if ← accept '[' then return .array (← items (value depth) (← get).length)
    else if ← accept '\x7b' then
      match Table.putAll ⟨.inlined, []⟩ (← inlineLines (value depth)) with
      | some t => return .table t.origin t.entries
      | none => failure
    else simpleValue

/-- How deep values may lie inside each other. -/
def depthLimit : Nat := 79

end Scan

/-- What opens a section: nothing, a table's name, or the name of a list of tables. -/
inductive Header where
  | top
  | table (path : List String) (key : String)
  | member (path : List String) (key : String)

structure Section where
  header : Header
  lines : List Table.Line

namespace Scan

/-- A header between brackets. -/
def header : Scan Header := do
  char '['
  let double ← accept '['
  let (path, last) ← key
  char ']'
  if double then
    char ']'
    lineEnd
    return .member path last
  else
    lineEnd
    return .table path last

/-- The rest of a section and the sections after it, `lines` being those read of it, in reverse. -/
def sections (header : Header) (lines : List Table.Line) : Nat → Scan (List Section)
  | 0 => failure
  | fuel + 1 => do
    skipLines
    match ← peek with
    | none => return [⟨header, lines.reverse⟩]
    | some '[' =>
      let next ← Scan.header
      return ⟨header, lines.reverse⟩ :: (← sections next [] fuel)
    | some _ =>
      let l ← line (value depthLimit)
      lineEnd
      sections header (l :: lines) fuel

end Scan

/-- Adds a section to the table of a document. A table has one header; the path of another header or
nothing may have made it before. -/
def addSection (root : Table) (s : Section) : Option Table :=
  match s.header with
  | .top => root.putAll s.lines
  | .table path key =>
    root.updateAt false path fun parent => do
      let start ←
        match parent.get? key with
        | none => some []
        | some (.table .path entries) => some entries
        | some _ => none
      let t ← Table.putAll ⟨.header, start⟩ s.lines
      return parent.insert key (.table .header t.entries)
  | .member path key =>
    root.updateAt false path fun parent => do
      let before ←
        match parent.get? key with
        | none => some []
        | some (.tables items) => some items
        | some _ => none
      let t ← Table.putAll ⟨.header, []⟩ s.lines
      return parent.insert key (.tables (before ++ [t.entries]))

/-- The table that a document writes. -/
def parse (s : String) : Option Table := do
  let cs :=
    match s.toList with
    | '\ufeff' :: rest => rest
    | cs => cs
  let (sections, _) ← Scan.sections .top [] (cs.length + 1) cs
  sections.foldlM addSection ⟨.header, []⟩

end SignalGraph.Toml
