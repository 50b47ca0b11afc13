import SignalGraph.Toml.Scan

namespace SignalGraph.Toml

def isHexDigit (c : Char) : Bool :=
  c.isDigit || ('a' ≤ c && c ≤ 'f') || ('A' ≤ c && c ≤ 'F')

def hexDigit (c : Char) : Nat :=
  if c.isDigit then c.toNat - '0'.toNat
  else if 'a' ≤ c then c.toNat - 'a'.toNat + 10
  else c.toNat - 'A'.toNat + 10

/-- The character with a code point in base sixteen, if there is one. -/
def codePoint? (digits : List Char) : Option Char :=
  if digits.all isHexDigit then
    let n := digits.foldl (fun n c => 16 * n + hexDigit c) 0
    if n.isValidChar then some (Char.ofNat n) else none
  else none

def shortEscape? : Char → Option Char
  | 'b' => some '\x08'
  | 't' => some '\t'
  | 'n' => some '\n'
  | 'f' => some '\x0c'
  | 'r' => some '\r'
  | '"' => some '"'
  | '\\' => some '\\'
  | _ => none

/-- A character in front of what the rest of a text reads as. -/
def prepend (c : Char) (r : Option (List Char × List Char)) : Option (List Char × List Char) :=
  r.map fun (text, rest) => (c :: text, rest)

/-- The inside of a text on one line in double quotes, up to and with the closing quote. -/
def escapedLine : List Char → Option (List Char × List Char)
  | '"' :: rest => some ([], rest)
  | '\\' :: 'u' :: a :: b :: c :: d :: rest =>
    (codePoint? [a, b, c, d]).bind (prepend · (escapedLine rest))
  | '\\' :: 'U' :: a :: b :: c :: d :: e :: f :: g :: h :: rest =>
    (codePoint? [a, b, c, d, e, f, g, h]).bind (prepend · (escapedLine rest))
  | '\\' :: c :: rest => (shortEscape? c).bind (prepend · (escapedLine rest))
  | c :: rest => if isVisible c then prepend c (escapedLine rest) else none
  | [] => none

/-- Whether only blanks come before the end of the line. -/
def endsLine (s : List Char) : Bool :=
  match s.dropWhile isSpace with
  | '\n' :: _ | '\r' :: '\n' :: _ => true
  | _ => false

/-- The inside of a text on several lines in double quotes. Up to two quotes may stand before the
closing ones; a backslash at the end of a line skips blanks and line ends. -/
def escapedLines (skip : Bool) : List Char → Option (List Char × List Char)
  | '"' :: '"' :: '"' :: '"' :: '"' :: rest => some (['"', '"'], rest)
  | '"' :: '"' :: '"' :: '"' :: rest => some (['"'], rest)
  | '"' :: '"' :: '"' :: rest => some ([], rest)
  | '\\' :: 'u' :: a :: b :: c :: d :: rest =>
    (codePoint? [a, b, c, d]).bind (prepend · (escapedLines false rest))
  | '\\' :: 'U' :: a :: b :: c :: d :: e :: f :: g :: h :: rest =>
    (codePoint? [a, b, c, d, e, f, g, h]).bind (prepend · (escapedLines false rest))
  | '\\' :: c :: rest =>
    if endsLine (c :: rest) then escapedLines true (c :: rest)
    else (shortEscape? c).bind (prepend · (escapedLines false rest))
  | '\r' :: '\n' :: rest =>
    if skip then escapedLines true rest else prepend '\n' (escapedLines false rest)
  | c :: rest =>
    if skip && (isSpace c || c = '\n') then escapedLines true rest
    else if c = '\n' || isVisible c then prepend c (escapedLines false rest)
    else none
  | [] => none

/-- The inside of a text on several lines in single quotes. -/
def plainLines : List Char → Option (List Char × List Char)
  | '\'' :: '\'' :: '\'' :: '\'' :: '\'' :: rest => some (['\'', '\''], rest)
  | '\'' :: '\'' :: '\'' :: '\'' :: rest => some (['\''], rest)
  | '\'' :: '\'' :: '\'' :: rest => some ([], rest)
  | '\r' :: '\n' :: rest => prepend '\n' (plainLines rest)
  | c :: rest => if c = '\n' || isVisible c then prepend c (plainLines rest) else none
  | [] => none

/-- A line end right behind the opening quotes does not belong to the text. -/
def dropFirstLineEnd : List Char → List Char
  | '\n' :: rest => rest
  | '\r' :: '\n' :: rest => rest
  | s => s

namespace Scan

/-- A text on one line in single quotes. -/
def plainText : Scan String := do
  char '\''
  let cs ← takeWhile fun c => isVisible c && c != '\''
  char '\''
  return String.ofList cs

/-- A text on one line in double quotes. -/
def escapedText : Scan String := do
  char '"'
  String.ofList <$> (escapedLine : Scan (List Char))

/-- A text in any of the four forms. -/
def text : Scan String := fun
  | '"' :: '"' :: '"' :: rest =>
    (escapedLines false (dropFirstLineEnd rest)).map fun (cs, rest) => (String.ofList cs, rest)
  | '\'' :: '\'' :: '\'' :: rest =>
    (plainLines (dropFirstLineEnd rest)).map fun (cs, rest) => (String.ofList cs, rest)
  | '"' :: rest => escapedText ('"' :: rest)
  | s => plainText s

def isBare (c : Char) : Bool := c.isAlphanum || c = '-' || c = '_'

def simpleKey : Scan String := do
  match ← peek with
  | some '"' => escapedText
  | some '\'' => plainText
  | _ =>
    let cs ← takeWhile isBare
    if cs.isEmpty then failure
    return String.ofList cs

/-- How many parts a key has at most. -/
def keyLimit : Nat := 79

/-- The parts of a key between dots, with the last one apart. -/
def key : Scan (List String × String) := do
  let part : Scan String := do
    spaces
    let k ← simpleKey
    spaces
    return k
  let parts ← separated part '.' (← get).length
  match parts.getLast? with
  | some last => if parts.length ≤ keyLimit then return (parts.dropLast, last) else failure
  | none => failure

end Scan

end SignalGraph.Toml
