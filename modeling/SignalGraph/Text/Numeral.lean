import SignalGraph.Text.Decimal

namespace SignalGraph.Text

def digitValue (c : Char) : Nat := c.toNat - '0'.toNat

/-- The number that decimal digits spell. -/
def digitsValue (ds : List Char) : Nat := ds.foldl (fun n c => 10 * n + digitValue c) 0

/-- The value `digits * 10 ^ exponent` as a float. Exponents that leave the range of floats on either
side are settled by the digit count. -/
def decimalFloat (negative : Bool) (digits : Nat) (exponent : Int) : Float :=
  let top := exponent + digitCount digits
  let magnitude : Float :=
    if digits = 0 || top < -400 then 0
    else if 400 < top then 1 / 0
    else Float.ofScientific digits (exponent < 0) exponent.natAbs
  if negative then -magnitude else magnitude

/-- A sign, if there is one, and the rest. -/
def takeSign : List Char → Bool × List Char
  | '-' :: cs => (true, cs)
  | '+' :: cs => (false, cs)
  | cs => (false, cs)

/-- Whether a number has a place among the signed words. -/
def inWord (i : Int) : Bool := Int.bmod i (Nat.pow 2 64) == i

/-- A whole number of sixty-four bits. -/
def readInt (s : String) : Option Int :=
  let (negative, ds) := takeSign s.toList
  if ds.isEmpty || !ds.all Char.isDigit then none
  else
    let i : Int := if negative then -(digitsValue ds : Int) else digitsValue ds
    if inWord i then some i else none

/-- The exponent behind the digits: nothing, or a letter, an optional sign and digits. -/
def readExponent : List Char → Option Int
  | [] => some 0
  | c :: cs =>
    if c != 'e' && c != 'E' then none
    else
      let (negative, ds) := takeSign cs
      if ds.isEmpty || !ds.all Char.isDigit then none
      else some (if negative then -(digitsValue ds : Int) else digitsValue ds)

/-- A float, or one of the words for what is no finite number. -/
def readFloat (s : String) : Option Float :=
  let (negative, cs) := takeSign s.toList
  let word := String.ofList (cs.map Char.toLower)
  if word = "inf" || word = "infinity" then some (if negative then -1 / 0 else 1 / 0)
  else if word = "nan" then some (0 / 0)
  else
    let whole := cs.takeWhile Char.isDigit
    let rest := cs.dropWhile Char.isDigit
    let (fraction, rest) :=
      match rest with
      | '.' :: r => (r.takeWhile Char.isDigit, r.dropWhile Char.isDigit)
      | r => ([], r)
    if whole.isEmpty && fraction.isEmpty then none
    else
      (readExponent rest).map fun e =>
        decimalFloat negative (digitsValue (whole ++ fraction)) (e - fraction.length)

end SignalGraph.Text
