import SignalGraph.Scalar

namespace SignalGraph

/-- A stream of words. `counter` is the block that comes after the words in `ready`. -/
structure Generator where
  key : Vector UInt32 8
  counter : UInt64
  ready : List UInt32

namespace Generator

abbrev Block := Vector UInt32 16

def rotateLeft (x k : UInt32) : UInt32 := (x <<< k) ||| (x >>> (32 - k))

/-- The ChaCha quarter round on four words of a block. -/
def quarter (v : Block) (a b c d : Fin 16) : Block :=
  let v := v.set a (v[a] + v[b])
  let v := v.set d (rotateLeft (v[d] ^^^ v[a]) 16)
  let v := v.set c (v[c] + v[d])
  let v := v.set b (rotateLeft (v[b] ^^^ v[c]) 12)
  let v := v.set a (v[a] + v[b])
  let v := v.set d (rotateLeft (v[d] ^^^ v[a]) 8)
  let v := v.set c (v[c] + v[d])
  v.set b (rotateLeft (v[b] ^^^ v[c]) 7)

/-- Quarter rounds on the columns and then on the diagonals. -/
def doubleRound (v : Block) : Block :=
  let v := quarter v 0 4 8 12
  let v := quarter v 1 5 9 13
  let v := quarter v 2 6 10 14
  let v := quarter v 3 7 11 15
  let v := quarter v 0 5 10 15
  let v := quarter v 1 6 11 12
  let v := quarter v 2 7 8 13
  quarter v 3 4 9 14

/-- The block of a counter: constants, key and counter, mixed by six double rounds and added. -/
def block (key : Vector UInt32 8) (counter : UInt64) : Block :=
  let v : Block :=
    (#v[0x61707865, 0x3320646e, 0x79622d32, 0x6b206574] : Vector UInt32 4) ++ key ++
      (#v[counter.toUInt32, (counter >>> 32).toUInt32, 0, 0] : Vector UInt32 4)
  Vector.zipWith (· + ·) (Nat.repeat doubleRound 6 v) v

/-- Eight key words from a seed, each a permuted state of a linear congruential generator. -/
def seedWords : Nat → UInt64 → List UInt32
  | 0, _ => []
  | n + 1, s =>
    let s := s * 6364136223846793005 + 11634580027462260723
    let x := (((s >>> 18) ^^^ s) >>> 27).toUInt32
    let r := (s >>> 59).toUInt32
    ((x >>> r) ||| (x <<< ((32 - r) &&& 31))) :: seedWords n s

def ofSeed (seed : UInt64) : Generator :=
  let words := (seedWords 8 seed).toArray
  ⟨Vector.ofFn fun i => words.getD i 0, 0, []⟩

/-- The next word of sixty-four bits, made of two words of the stream, the low one first. -/
def next (g : Generator) : UInt64 × Generator :=
  let join (low high : UInt32) : UInt64 := low.toUInt64 ||| (high.toUInt64 <<< 32)
  match g.ready with
  | low :: high :: rest => (join low high, { g with ready := rest })
  | _ =>
    let words := (block g.key g.counter).toList
    (join (words.getD 0 0) (words.getD 1 0),
      { g with counter := g.counter + 1, ready := words.drop 2 })

end Generator

/-- Draws from a generator. -/
abbrev Draw := StateM Generator

namespace Draw

variable {α : Type} [Scalar α]

def word : Draw UInt64 := Generator.next

/-- A number from zero up to, but not including, one. -/
def unit : Draw α :=
  return Scalar.ofNat ((← word).toNat.shiftRight 11) / Scalar.ofNat (Nat.pow 2 53)

/-- How often a draw that is refused is tried. The loops that this stands for have no bound. -/
def attempts : Nat := 64

/-- A number from `low` up to, but not including, `high`. Only rounding takes a draw up to `high`, and
it is then made again; a loop without bound is cut off after `fuel` draws, with `low` for an answer. -/
def between (low high : α) : Nat → Draw α
  | 0 => return low
  | fuel + 1 => do
    let fraction : α := Scalar.ofNat ((← word).toNat.shiftRight 12) / Scalar.ofNat (Nat.pow 2 52)
    let x := fraction * (high - low) + low
    if Scalar.less x high then return x else between low high fuel

/-- A normally distributed number. -/
def gaussian : Draw α := do
  let u : α := Scalar.one - (← unit)
  let v : α ← unit
  let two : α := Scalar.ofNat 2
  return Scalar.sqrt (-two * Scalar.log u) * Scalar.cos (two * Scalar.pi * v)

/-- A direction: as many normally distributed numbers, divided by their length. Numbers that are all
next to zero are drawn again; a loop without bound is cut off after `fuel` draws, with a vector of
zeros for an answer. -/
def direction (dims : Nat) : Nat → Draw (List α)
  | 0 => return List.replicate dims Scalar.zero
  | fuel + 1 => do
    let v ← (List.replicate dims ()).mapM fun _ => gaussian
    let norm := Scalar.sqrt (Scalar.dot v v)
    if Scalar.less (Scalar.ratio 1 (Nat.pow 10 12)) norm then return v.map (· / norm)
    else direction dims fuel

end Draw

end SignalGraph
