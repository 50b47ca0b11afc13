import SignalGraph.Signal

namespace SignalGraph.Signal

variable {α : Type} [Scalar α]

omit [Scalar α] in
/-- The same values at any time. -/
def steady (size : Nat) (values : List α) : Signal α := .timed size fun _ => values

/-- Values growing in proportion to time. -/
def ramp (size : Nat) (slopes : List α) : Signal α := .timed size fun t => slopes.map (· * t)

/-- A cosine wave per frequency. -/
def cosine (size : Nat) (frequencies : List α) : Signal α :=
  .timed size fun t =>
    frequencies.map fun f => Scalar.cos (Scalar.ofNat 2 * Scalar.pi * f * t)

/-- Values up to a time, then zeros. -/
def pulse (size : Nat) (values : List α) (stop : α) : Signal α :=
  .timed size fun t => if Scalar.less t stop then values else values.map fun _ => Scalar.zero

/-- Values that become one more from a time on. -/
def grow (size : Nat) (values : List α) (start : α) : Signal α :=
  .timed size fun t => if Scalar.atMost start t then values ++ [Scalar.zero] else values

/-- The waveforms by name. The moment is that of the change, for those that have one. -/
def named? (name : String) (size : Nat) (values : List α) (moment : α) : Option (Signal α) :=
  match name with
  | "const" => some (steady size values)
  | "ramp" => some (ramp size values)
  | "cos" => some (cosine size values)
  | "pulse" => some (pulse size values moment)
  | "grow" => some (grow size values moment)
  | _ => none

end SignalGraph.Signal
