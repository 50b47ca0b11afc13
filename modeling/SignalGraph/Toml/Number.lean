import SignalGraph.Text.Numeral
import SignalGraph.Toml.Text
import SignalGraph.Toml.Value

namespace SignalGraph.Toml

/-- Digits of a class with underscores between them, and the rest. -/
def digitRun (p : Char → Bool) : List Char → List Char × List Char
  | '_' :: c :: rest =>
    if p c then
      let (ds, rest) := digitRun p rest
      (c :: ds, rest)
    else ([], '_' :: c :: rest)
  | c :: rest =>
    if p c then
      let (ds, rest) := digitRun p rest
      (c :: ds, rest)
    else ([], c :: rest)
  | [] => ([], [])

namespace Scan

def digits (p : Char → Bool) : Scan (List Char) := fun s =>
  match s with
  | c :: _ => if p c then some (digitRun p s) else none
  | [] => none

/-- Whether a sign is there, and a minus. -/
def sign : Scan (Option Bool) := do
  if ← accept '-' then return some true
  else if ← accept '+' then return some false
  else return none

/-- Decimal digits that do not start with a zero, unless it is the only one. -/
def wholeDigits : Scan (List Char) := do
  if ← accept '0' then return ['0'] else digits Char.isDigit

/-- A fraction, if there is a point. -/
def fraction : Scan (Option (List Char)) := do
  if ← accept '.' then some <$> digits Char.isDigit else return none

/-- An exponent, if there is its letter. -/
def exponent : Scan (Option Int) := do
  let lower ← accept 'e'
  let letter ← if lower then pure true else accept 'E'
  if !letter then return none
  let negative := (← sign).getD false
  let e : Int := Text.digitsValue (← digits Char.isDigit)
  return some (if negative then -e else e)

def int (i : Int) : Scan Value := if Text.inWord i then return .int i else failure

/-- A whole number in base two, eight or sixteen, behind the letter of the base. -/
def basedInt (base : Nat) (p : Char → Bool) : Scan Value := do
  let ds ← digits p
  int (ds.foldl (fun n c => base * n + hexDigit c) 0 : Nat)

/-- A decimal number: a float if it has a fraction or an exponent. Only a negative float may be too
large for a finite one. -/
def decimal (negative : Bool) : Scan Value := do
  let whole ← wholeDigits
  let part ← fraction
  let e ← exponent
  if part.isNone && e.isNone then
    let n : Int := Text.digitsValue whole
    int (if negative then -n else n)
  else
    let part := part.getD []
    let x := Text.decimalFloat negative (Text.digitsValue (whole ++ part))
      (e.getD 0 - part.length)
    if x == 1 / 0 then failure
    return .float x

def number : Scan Value := do
  let sign ← sign
  let negative := sign.getD false
  match ← get with
  | 'i' :: _ => do
    word "inf"
    return .float (if negative then -1 / 0 else 1 / 0)
  | 'n' :: _ => do
    word "nan"
    return .float (0 / 0)
  | '0' :: base :: rest =>
    if sign.isSome then decimal negative
    else
      match base with
      | 'x' => do set rest; basedInt 16 isHexDigit
      | 'o' => do set rest; basedInt 8 fun c => '0' ≤ c && c ≤ '7'
      | 'b' => do set rest; basedInt 2 fun c => c = '0' || c = '1'
      | _ => decimal negative
  | _ => decimal negative

/-- A number of two digits within limits. -/
def field (low high : Nat) : Scan Nat := do
  let n := Text.digitsValue (← exactly 2 Char.isDigit)
  if low ≤ n && n ≤ high then return n else failure

end Scan

def isLeapYear (year : Nat) : Bool := year % 4 == 0 && (year % 100 != 0 || year % 400 == 0)

def monthLength (year month : Nat) : Nat :=
  if month = 2 then (if isLeapYear year then 29 else 28)
  else if month = 4 || month = 6 || month = 9 || month = 11 then 30
  else 31

/-- A number in `width` places. -/
def padded (width n : Nat) : String :=
  let s := toString n
  String.ofList (List.replicate (width - s.length) '0') ++ s

/-- Up to nine decimal places, without zeros at their end. -/
def secondFraction (ds : List Char) : String :=
  let ds := ((ds.take 9).reverse.dropWhile (· = '0')).reverse
  if ds.isEmpty then "" else "." ++ String.ofList ds

namespace Scan

def day : Scan String := do
  let year := Text.digitsValue (← exactly 4 Char.isDigit)
  char '-'
  let month ← field 1 12
  char '-'
  let day ← field 1 (monthLength year month)
  return padded 4 year ++ "-" ++ padded 2 month ++ "-" ++ padded 2 day

def time : Scan String := do
  let hour ← field 0 23
  char ':'
  let minute ← field 0 59
  char ':'
  let second ← field 0 60
  let part ← do
    if ← accept '.' then
      let ds ← takeWhile Char.isDigit
      if ds.isEmpty then failure
      pure ds
    else pure []
  return padded 2 hour ++ ":" ++ padded 2 minute ++ ":" ++ padded 2 second ++ secondFraction part

/-- The distance from universal time, if one is given. -/
def zone : Scan String := do
  let upper ← accept 'Z'
  let universal ← if upper then pure true else accept 'z'
  if universal then return "Z"
  match ← sign with
  | none => return ""
  | some negative =>
    let hour ← field 0 23
    char ':'
    let minute ← field 0 59
    let west := negative && (hour != 0 || minute != 0)
    return (if west then "-" else "+") ++ padded 2 hour ++ ":" ++ padded 2 minute

/-- A time of the day behind a date, and its zone. -/
def timeBehind : Scan String := do
  match ← get with
  | c :: rest =>
    if c = 'T' || c = 't' || c = ' ' then
      set rest
      let t ← time
      return "T" ++ t ++ (← zone)
    else failure
  | [] => failure

/-- A date, a time, or both. -/
def date : Scan Value := do
  let dated : Scan String := do
    let d ← day
    return d ++ (← timeBehind <|> pure "")
  return .date (← dated <|> time)

end Scan

end SignalGraph.Toml
