import SignalGraph.Text.Binary

namespace SignalGraph.Text

/-- The number `digits * 10 ^ exponent`. -/
structure Decimal where
  digits : Nat
  exponent : Int
deriving Repr, DecidableEq

/-- A positive fraction of whole numbers. -/
structure Fraction where
  num : Nat
  den : Nat
deriving Repr

namespace Fraction

/-- The fraction times a power of `base`. -/
def scale (f : Fraction) (base : Nat) (exponent : Int) : Fraction :=
  if 0 ≤ exponent then ⟨f.num * Nat.pow base exponent.toNat, f.den⟩
  else ⟨f.num, f.den * Nat.pow base (-exponent).toNat⟩

def le (f g : Fraction) : Bool := f.num * g.den ≤ g.num * f.den

def lt (f g : Fraction) : Bool := f.num * g.den < g.num * f.den

end Fraction

/-- How many decimal digits a whole number is written with. -/
def digitCount (n : Nat) : Nat := (toString n).length

/-- The exponent `p` with `10 ^ p ≤ f < 10 ^ (p + 1)`: the digit counts leave two candidates. -/
def leadingExponent (f : Fraction) : Int :=
  let guess : Int := (digitCount f.num : Int) - digitCount f.den
  if (Fraction.scale ⟨1, 1⟩ 10 guess).le f then guess else guess - 1

namespace Decimal

def strip : Nat → Nat → Int → Decimal
  | 0, digits, exponent => ⟨digits, exponent⟩
  | fuel + 1, digits, exponent =>
    if digits % 10 = 0 then strip fuel (digits / 10) (exponent + 1) else ⟨digits, exponent⟩

/-- The same number without trailing zeros. -/
def normal (d : Decimal) : Decimal :=
  if d.digits = 0 then ⟨0, 0⟩ else strip (digitCount d.digits) d.digits d.exponent

def toFraction (d : Decimal) : Fraction := Fraction.scale ⟨d.digits, 1⟩ 10 d.exponent

/-- The grid point below `value`, and the one above it, `10 ^ exponent` apart. -/
def neighbours (value : Fraction) (exponent : Int) : Decimal × Decimal :=
  let f := value.scale 10 (-exponent)
  let low := f.num / f.den
  (⟨low, exponent⟩, ⟨low + 1, exponent⟩)

/-- The better of a grid point and the next: a value halfway between them goes up. -/
def nearerUp (value : Fraction) (low high : Decimal) : Decimal :=
  let f := value.scale 10 (-low.exponent)
  if 2 * f.num < (2 * low.digits + 1) * f.den then low else high

/-- The interval of numbers that read back as the float; its ends belong to it when `closed`. -/
structure Range where
  low : Fraction
  high : Fraction
  closed : Bool

def Range.holds (r : Range) (d : Decimal) : Bool :=
  let f := d.toFraction
  if r.closed then r.low.le f && f.le r.high else r.low.lt f && f.lt r.high

/-- The first grid with a point in the interval, from one digit on. -/
def search (value : Fraction) (range : Range) (leading : Int) : Nat → Nat → Decimal
  | 0, count => (neighbours value (leading - count + 1)).1
  | fuel + 1, count =>
    let (low, high) := neighbours value (leading - count + 1)
    match range.holds low, range.holds high with
    | true, true => nearerUp value low high
    | true, false => low
    | false, true => high
    | false, false => search value range leading fuel (count + 1)

/-- The fewest digits that read back as `mantissa * 2 ^ exponent`, and of those the nearest. -/
def shortest (mantissa : Nat) (exponent : Int) (narrow : Bool) : Decimal :=
  if mantissa = 0 then ⟨0, 0⟩
  else
    let quarter (n : Nat) := Fraction.scale ⟨n, 1⟩ 2 (exponent - 2)
    let value := quarter (4 * mantissa)
    let range : Range :=
      ⟨quarter (4 * mantissa - if narrow then 1 else 2), quarter (4 * mantissa + 2),
        mantissa % 2 = 0⟩
    (search value range (leadingExponent value) 17 1).normal

/-- The value to `count` significant digits; a value halfway between two goes to the even one. -/
def rounded (mantissa : Nat) (exponent : Int) (count : Nat) : Decimal :=
  if mantissa = 0 then ⟨0, 0⟩
  else
    let value := Fraction.scale ⟨mantissa, 1⟩ 2 exponent
    let unit := leadingExponent value - count + 1
    let f := value.scale 10 (-unit)
    let low := f.num / f.den
    let twice := 2 * (f.num % f.den)
    let up := f.den < twice || (twice == f.den && low % 2 == 1)
    normal ⟨if up then low + 1 else low, unit⟩

end Decimal

end SignalGraph.Text
