import SignalGraph.Text.Decimal

namespace SignalGraph.Text

/-- The decisions of one way of writing a number. -/
structure Layout where
  /-- Whether a number whose first digit stands at this power of ten is written without exponent. -/
  positional : Int → Bool
  /-- Whether a whole number written without exponent ends in a point and a zero. -/
  wholePoint : Bool
  /-- Whether zero keeps its sign. -/
  signedZero : Bool
  nan : String

namespace Layout

/-- Never an exponent, no point in whole numbers. -/
def plain : Layout := ⟨fun _ => true, false, true, "NaN"⟩

/-- Positional from `0.0001` up to sixteen digits before the point. -/
def exact : Layout := ⟨fun p => -4 ≤ p && p < 16, true, true, "NaN"⟩

/-- One digit before the point and always an exponent, except for zero. -/
def scientific : Layout := ⟨fun _ => false, false, false, "nan"⟩

end Layout

def zeros (n : Nat) : String := String.ofList (List.replicate n '0')

/-- Digits with the point at its place, filled up with zeros. -/
def positionalText (digits : String) (exponent : Int) (wholePoint : Bool) : String :=
  if 0 ≤ exponent then
    digits ++ zeros exponent.toNat ++ (if wholePoint then ".0" else "")
  else
    let places := (-exponent).toNat
    if places < digits.length then
      let cut := digits.length - places
      String.ofList (digits.toList.take cut) ++ "." ++ String.ofList (digits.toList.drop cut)
    else "0." ++ zeros (places - digits.length) ++ digits

/-- The first digit, the others behind a point, and the power of ten of the first. -/
def exponentText (digits : String) (exponent : Int) : String :=
  let rest := String.ofList (digits.toList.drop 1)
  String.ofList (digits.toList.take 1) ++ (if rest.isEmpty then "" else "." ++ rest) ++ "e" ++
    toString (exponent + rest.length)

namespace Layout

def zeroText (l : Layout) : String := if l.wholePoint then "0.0" else "0"

/-- A number of the given sign, zero being written by itself. -/
def decimalText (l : Layout) (negative : Bool) (d : Decimal) : String :=
  if d.digits = 0 then (if negative && l.signedZero then "-" else "") ++ l.zeroText
  else
    let digits := toString d.digits
    (if negative then "-" else "") ++
      if l.positional (d.exponent + digits.length - 1) then
        positionalText digits d.exponent l.wholePoint
      else exponentText digits d.exponent

/-- A float in this layout, the digits of a finite value being chosen by `digits`. -/
def text (l : Layout) (digits : Nat → Int → Bool → Decimal) (x : Float) : String :=
  match Binary.ofFloat x with
  | .nan => l.nan
  | .infinite negative => if negative then "-inf" else "inf"
  | .finite negative mantissa exponent narrow =>
    l.decimalText negative (digits mantissa exponent narrow)

end Layout

/-- The fewest digits that read back, without exponent. -/
def plainText (x : Float) : String := Layout.plain.text Decimal.shortest x

/-- The fewest digits that read back, always told apart from a whole number. -/
def exactText (x : Float) : String := Layout.exact.text Decimal.shortest x

/-- `count` significant digits in scientific notation. -/
def scientificText (count : Nat) (x : Float) : String :=
  Layout.scientific.text (fun m e _ => Decimal.rounded m e count) x

end SignalGraph.Text
