import SignalGraph.Scalar
import SignalGraph.Text.Number

namespace SignalGraph

def floatLogOnePlus (x : Float) : Float :=
  let u := 1 + x
  if u == 1 then x else u.log * x / (u - 1)

def floatExpMinusOne (x : Float) : Float :=
  let u := x.exp
  if u == 1 then x
  else if u - 1 == -1 then -1
  else (u - 1) * x / u.log

instance : Scalar Float where
  ofNat := Float.ofNat
  less a b := a < b
  same a b := a == b
  isFinite := Float.isFinite
  pi := 3.141592653589793
  abs := Float.abs
  sqrt := Float.sqrt
  exp := Float.exp
  expMinusOne := floatExpMinusOne
  log := Float.log
  logOnePlus := floatLogOnePlus
  sin := Float.sin
  cos := Float.cos
  tanh := Float.tanh
  pow := Float.pow
  nearestNat x := x.round.toUInt64.toNat
  text := Text.plainText

end SignalGraph
