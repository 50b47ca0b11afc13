namespace SignalGraph.Toml

/-- Reads from the front of a text, or fails. -/
abbrev Scan := StateT (List Char) Option

/-- A blank within a line. -/
def isSpace (c : Char) : Bool := c = ' ' || c = '\t'

/-- Whether a character may stand by itself in comments and texts; line ends and other controls
may not. -/
def isVisible (c : Char) : Bool := c = '\t' || (' ' ≤ c && c != '\x7f')

namespace Scan

def char (c : Char) : Scan Unit := fun
  | d :: rest => if d = c then some ((), rest) else none
  | [] => none

def word (w : String) : Scan Unit := w.toList.forM char

def takeWhile (p : Char → Bool) : Scan (List Char) := fun s =>
  some (s.takeWhile p, s.dropWhile p)

/-- The next character, which is left there. -/
def peek : Scan (Option Char) := fun s => some (s.head?, s)

def spaces : Scan Unit := discard (takeWhile isSpace)

/-- Whether a character comes next; it is read if it does. -/
def accept (c : Char) : Scan Bool := fun
  | d :: rest => if d = c then some (true, rest) else some (false, d :: rest)
  | [] => some (false, [])

def newline : Scan Unit := fun
  | '\n' :: rest => some ((), rest)
  | '\r' :: '\n' :: rest => some ((), rest)
  | _ => none

def comment : Scan Unit := do
  if ← accept '#' then discard (takeWhile isVisible)

/-- The end of a line: blanks, a comment, and a line end unless the text ends. -/
def lineEnd : Scan Unit := do
  spaces
  comment
  if (← peek).isSome then newline

/-- Blanks, comments and line ends, up to `fuel` lines of them. -/
def blankLines : Nat → Scan Unit
  | 0 => spaces
  | fuel + 1 => do
    spaces
    match ← peek with
    | some '#' | some '\n' | some '\r' =>
      lineEnd
      blankLines fuel
    | _ => return

def skipLines : Scan Unit := do blankLines (← get).length

/-- A fixed count of characters of a class. -/
def exactly (count : Nat) (p : Char → Bool) : Scan (List Char) := fun s =>
  let cs := s.take count
  if cs.length = count && cs.all p then some (cs, s.drop count) else none

/-- Items with a separator between them, up to `fuel` more. -/
def separated {β : Type} (item : Scan β) (separator : Char) : Nat → Scan (List β)
  | 0 => return [← item]
  | fuel + 1 => do
    let x ← item
    if ← accept separator then return x :: (← separated item separator fuel)
    else return [x]

end Scan

end SignalGraph.Toml
