namespace SignalGraph

/-- The lengths of an array's axes, the outermost first. -/
abbrev Shape := List Nat

/-- Sizes and indices are words of sixty-four bits. -/
def wordCount : Nat := Nat.pow 2 64

/-- A vector holds fewer entries of eight bytes, numbers or handles of nodes, than this: its bytes are
counted by a signed word. -/
def entryLimit : Nat := Nat.pow 2 60

/-- A word read as a signed number. -/
def signedWord (n : Nat) : Int := Int.bmod n wordCount

/-- Why storage of some length cannot hold an array. -/
inductive StorageFault where
  | overflow
  | tooShort
  | tooLong
deriving Repr, DecidableEq

/-- What a shape, an index or a list of sizes was refused for. -/
inductive ShapeFault where
  | cannotFill (count : Nat) (shape : Shape)
  | storage (fault : StorageFault)
  | emptyStack
  | emptyConcatenation
  | ragged (first other : Shape)
  | cannotConcatenate (first other : Shape) (axis : Nat)
  | cannotReshape (shape target : Shape)
  | notPermutation (axes : List Nat) (shape : Shape)
  | indexOutOfBounds (index axis length : Nat)
  | rangeOutOfBounds (start stop axis length : Nat)
  | cannotSpread (shape target : Shape)
  | cannotSpreadBoth (left right : Shape)
  | numericOperand (shape : Shape)
  | notSingle (shape : Shape)
  | emptyOutput (kind : String)
  | inputCount (kind : String) (count : Nat)
  | stimulusInputs
  | matrixCount (matrices inputs : Nat)
  | sliceIndex (index size : Nat)
  | emptyBundle
  | unbundleSizes (first other : Nat)
  | traceSizes (first other : Nat)
  | custom (reason : String)
deriving Repr, DecidableEq

inductive ShapeError where
  | broadcast (left right : Shape)
  | sizeMismatch (op : String) (expected actual : Nat)
  | axisOutOfBounds (axis rank : Nat)
  | invalid (fault : ShapeFault)
deriving Repr, DecidableEq

/-- Numbers between square brackets. -/
def listText (ns : List Nat) : String := "[" ++ ", ".intercalate (ns.map toString) ++ "]"

def StorageFault.message : StorageFault → String
  | overflow => "ShapeError/Overflow: arithmetic overflow"
  | tooShort => "ShapeError/OutOfBounds: out of bounds indexing"
  | tooLong => "ShapeError/IncompatibleShape: incompatible shapes"

def ShapeFault.message : ShapeFault → String
  | cannotFill count shape => s!"{count} nodes cannot fill shape {listText shape}"
  | storage fault => fault.message
  | emptyStack => "cannot stack an empty list of Folds"
  | emptyConcatenation => "cannot concatenate an empty list of Folds"
  | ragged first other => s!"ragged nesting: shapes {listText first} and {listText other}"
  | cannotConcatenate first other axis =>
    s!"cannot concatenate shapes {listText first} and {listText other} along axis {axis}"
  | cannotReshape shape target => s!"cannot reshape {listText shape} into {listText target}"
  | notPermutation axes shape =>
    s!"{listText axes} is not a permutation of the axes of {listText shape}"
  | indexOutOfBounds index axis length =>
    s!"index {index} out of bounds for axis {axis} of length {length}"
  | rangeOutOfBounds start stop axis length =>
    s!"range {start}..{stop} out of bounds for axis {axis} of length {length}"
  | cannotSpread shape target => s!"cannot broadcast {listText shape} to {listText target}"
  | cannotSpreadBoth left right => s!"cannot broadcast {listText left} and {listText right}"
  | numericOperand shape => s!"expected a graph result, got numeric {listText shape}"
  | notSingle shape => s!"expected a single node, got Fold {listText shape}"
  | emptyOutput kind => s!"{kind} node would have an empty output"
  | inputCount kind count => s!"{kind} takes exactly one input, got {count}"
  | stimulusInputs => "stimulus takes no inputs"
  | matrixCount matrices inputs => s!"transform has {matrices} matrices for {inputs} inputs"
  | sliceIndex index size => s!"slice index {index} out of range for size {size}"
  | emptyBundle => "bundle needs at least one input"
  | unbundleSizes first other => s!"cannot unbundle nodes of sizes {first} and {other}"
  | traceSizes first other => s!"cannot stack traces of sizes {first} and {other} into one array"
  | custom reason => reason

def ShapeError.message : ShapeError → String
  | broadcast left right => s!"Cannot broadcast shapes {listText left} and {listText right}"
  | sizeMismatch op expected actual => s!"{op}: expected size {expected}, got {actual}"
  | axisOutOfBounds axis rank => s!"Axis {axis} out of bounds for rank {rank}"
  | invalid fault => fault.message

namespace Shape

/-- The number of positions. -/
def size : Shape → Nat
  | [] => 1
  | n :: s => n * size s

/-- The sum of lengths. -/
def total (ns : List Nat) : Nat := ns.foldr (· + ·) 0

/-- The sum of lengths as a word. -/
def wordTotal (ns : List Nat) : Nat := total ns % wordCount

theorem wordTotal_of_lt {ns : List Nat} (h : total ns < wordCount) : wordTotal ns = total ns :=
  Nat.mod_eq_of_lt h

/-- The number of positions as a word. -/
def wordSize (s : Shape) : Nat := size s % wordCount

/-- Whether the lengths other than zero multiply to a signed word. -/
def addressable (s : Shape) : Bool := size (s.filter (· != 0)) < Nat.pow 2 63

/-- Whether an index names a position. -/
def Within : List Nat → Shape → Prop
  | [], [] => True
  | i :: is, n :: s => i < n ∧ Within is s
  | _, _ => False

instance decidableWithin : (i : List Nat) → (s : Shape) → Decidable (Within i s)
  | [], [] => .isTrue trivial
  | i :: is, n :: s =>
    match Nat.decLt i n, decidableWithin is s with
    | .isTrue h, .isTrue g => .isTrue ⟨h, g⟩
    | .isFalse h, _ => .isFalse fun k => h k.1
    | _, .isFalse g => .isFalse fun k => g k.2
  | [], _ :: _ => .isFalse id
  | _ :: _, [] => .isFalse id

/-- How many positions come before an index. -/
def offset : Shape → List Nat → Nat
  | _ :: s, i :: is => i * size s + offset s is
  | _, _ => 0

/-- The index of the position with `p` others before it. -/
def unravel : Shape → Nat → List Nat
  | [], _ => []
  | _ :: s, p => p / size s :: unravel s (p % size s)

theorem within_unravel {s : Shape} {p : Nat} (h : p < size s) : Within (unravel s p) s := by
  induction s generalizing p with
  | nil => trivial
  | cons n s ih =>
    have hs : 0 < size s := by
      refine Nat.pos_of_ne_zero fun h0 => ?_
      simp [size, h0] at h
    exact ⟨Nat.div_lt_of_lt_mul (by rwa [size, Nat.mul_comm] at h), ih (Nat.mod_lt _ hs)⟩

theorem offset_unravel {s : Shape} {p : Nat} (h : p < size s) : offset s (unravel s p) = p := by
  induction s generalizing p with
  | nil => simp [size] at h; simp [offset, h]
  | cons n s ih =>
    have hs : 0 < size s := by
      refine Nat.pos_of_ne_zero fun h0 => ?_
      simp [size, h0] at h
    simp only [offset, unravel, ih (Nat.mod_lt p hs)]
    rw [Nat.mul_comm]
    exact Nat.div_add_mod p (size s)

theorem offset_lt {s : Shape} {i : List Nat} (h : Within i s) : offset s i < size s := by
  induction s generalizing i with
  | nil => cases i <;> simp_all [Within, offset, size]
  | cons n s ih =>
    cases i with
    | nil => simp [Within] at h
    | cons k is =>
      have hr := ih h.2
      have hk : (k + 1) * size s ≤ n * size s := Nat.mul_le_mul_right _ h.1
      rw [Nat.succ_mul] at hk
      simp only [offset, size]
      omega

theorem unravel_offset {s : Shape} {i : List Nat} (h : Within i s) :
    unravel s (offset s i) = i := by
  induction s generalizing i with
  | nil => cases i <;> simp_all [Within, unravel]
  | cons n s ih =>
    cases i with
    | nil => simp [Within] at h
    | cons k is =>
      have hr := offset_lt h.2
      have hs : 0 < size s := by omega
      simp only [unravel, offset]
      rw [Nat.add_comm, Nat.add_mul_div_right _ _ hs, Nat.div_eq_of_lt hr, Nat.zero_add,
        Nat.add_mul_mod_self_right, Nat.mod_eq_of_lt hr, ih h.2]

/-- The length that two lengths are stretched to: equal, or one of them 1. -/
def joinLength (a b : Nat) : Option Nat :=
  if a = b then some a else if a = 1 then some b else if b = 1 then some a else none

/-- The shape with axes of length 1 in front, up to a rank. -/
def padTo (rank : Nat) (s : Shape) : Shape := List.replicate (rank - s.length) 1 ++ s

/-- The shape that two shapes are broadcast to, aligned at their last axes. -/
def broadcast (left right : Shape) : Except ShapeError Shape :=
  let rank := max left.length right.length
  match (List.zip (padTo rank left) (padTo rank right)).mapM fun p => joinLength p.1 p.2 with
  | some s => .ok s
  | none => .error (.broadcast left right)

/-- The shape that a list of shapes is broadcast to, taken from the left. -/
def broadcastAll (shapes : List Shape) : Except ShapeError Shape :=
  shapes.foldlM broadcast []

/-- Whether an array of shape `s` can be stretched to `target`: its axes are the last ones there, each
of the same length or of length 1. -/
def spreads (s target : Shape) : Bool :=
  addressable target && s.length ≤ target.length &&
    (List.zip s (target.drop (target.length - s.length))).all fun p => p.1 == p.2 || p.1 == 1

/-- The index in a stretched array's source: leading axes dropped, zero on axes of length 1. -/
def restrict (s : Shape) (i : List Nat) : List Nat :=
  List.zipWith (fun n k => if n = 1 then 0 else k) s (i.drop (i.length - s.length))

def checkAxis (axis rank : Nat) : Except ShapeError Unit :=
  if axis < rank then .ok () else .error (.axisOutOfBounds axis rank)

/-- The axis that a signed number names, a negative one counting from the end. -/
def signedAxis (axis : Int) (rank : Nat) : Except ShapeError Nat :=
  let resolved := if axis < 0 then axis + rank else axis
  if resolved < 0 || (rank : Int) ≤ resolved then .error (.axisOutOfBounds axis.natAbs rank)
  else .ok resolved.toNat

end Shape

end SignalGraph
