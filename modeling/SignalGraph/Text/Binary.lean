namespace SignalGraph.Text

/-- What the bits of a float stand for. A finite value is `mantissa * 2 ^ exponent`; `narrow` tells
that the next smaller value is only half as far away as the next larger one. -/
inductive Binary where
  | nan
  | infinite (negative : Bool)
  | finite (negative : Bool) (mantissa : Nat) (exponent : Int) (narrow : Bool)
deriving Repr, DecidableEq

namespace Binary

def ofBits (bits : UInt64) : Binary :=
  let negative := (bits >>> 63) == 1
  let field := ((bits >>> 52) &&& 0x7ff).toNat
  let fraction := (bits &&& 0xfffffffffffff).toNat
  if field = 0x7ff then
    if fraction = 0 then .infinite negative else .nan
  else if field = 0 then
    .finite negative fraction (-1074) false
  else
    .finite negative (Nat.pow 2 52 + fraction) (field - 1075) (fraction == 0 && field > 1)

def ofFloat (x : Float) : Binary := ofBits x.toBits

end Binary

end SignalGraph.Text
