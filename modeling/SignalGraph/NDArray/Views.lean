import SignalGraph.NDArray.Basic

namespace SignalGraph.NDArray

variable {β : Type} [Inhabited β]

/-- The array of shape `s` whose value at an index is taken from the source at another. -/
def gather (a : NDArray β) (s : Shape) (source : List Nat → List Nat) : NDArray β :=
  tabulate s fun i => a.entry (source i)

/-- The same values in the same order under another shape. -/
def reshape (a : NDArray β) (s : Shape) : Except ShapeError (NDArray β) :=
  if Shape.wordSize s ≠ a.size then .error (.invalid (.cannotReshape a.shape s))
  else fill s a.toList

def transpose (a : NDArray β) : NDArray β := a.gather a.shape.reverse List.reverse

/-- Whether each axis is in range and has not been seen before. -/
def allNew (seen : Array Bool) : List Nat → Bool
  | [] => true
  | axis :: axes =>
    axis < seen.size && !seen.getD axis false && allNew (seen.setIfInBounds axis true) axes

/-- Whether every axis below `rank` is named once. -/
def isPermutation (axes : List Nat) (rank : Nat) : Bool :=
  axes.length == rank && allNew (Array.replicate rank false) axes

/-- The index in the source of a permuted array: axis `axes[t]` of the source is axis `t`. -/
def unpermute (axes i : List Nat) : List Nat :=
  (List.range axes.length).map fun axis => i.getD (axes.idxOf axis) 0

def permute (a : NDArray β) (axes : List Nat) : Except ShapeError (NDArray β) :=
  if isPermutation axes a.rank then
    .ok (a.gather (axes.map a.axisLength) (unpermute axes))
  else .error (.invalid (.notPermutation axes a.shape))

/-- The part of the array at one index of an axis, without that axis. -/
def indexAxis (a : NDArray β) (axis index : Nat) : Except ShapeError (NDArray β) := do
  Shape.checkAxis axis a.rank
  if a.axisLength axis ≤ index then
    throw (.invalid (.indexOutOfBounds index axis (a.axisLength axis)))
  return a.gather (a.shape.eraseIdx axis) (·.insertIdx axis index)

/-- The part of the array between two places of an axis. -/
def sliceAxis (a : NDArray β) (axis start stop : Nat) : Except ShapeError (NDArray β) := do
  Shape.checkAxis axis a.rank
  if stop < start || a.axisLength axis < stop then
    throw (.invalid (.rangeOutOfBounds start stop axis (a.axisLength axis)))
  return a.gather (a.shape.set axis (stop - start)) (·.modify axis (start + ·))

/-- The parts of the array at the given indices of an axis, in their order. -/
def select (a : NDArray β) (axis : Nat) (indices : List Nat) : Except ShapeError (NDArray β) := do
  Shape.checkAxis axis a.rank
  match indices.find? (a.axisLength axis ≤ ·) with
  | some bad => throw (.invalid (.indexOutOfBounds bad axis (a.axisLength axis)))
  | none =>
    return a.gather (a.shape.set axis indices.length) (·.modify axis (indices.getD · 0))

def insertAxis (a : NDArray β) (axis : Nat) : Except ShapeError (NDArray β) := do
  Shape.checkAxis axis (a.rank + 1)
  return a.gather (a.shape.insertIdx axis 1) (·.eraseIdx axis)

/-- The array stretched to a shape. -/
def spread? (a : NDArray β) (s : Shape) : Option (NDArray β) :=
  if Shape.spreads a.shape s then some (a.gather s (Shape.restrict a.shape)) else none

def broadcastTo (a : NDArray β) (s : Shape) : Except ShapeError (NDArray β) :=
  match a.spread? s with
  | some b => .ok b
  | none => .error (.broadcast a.shape s)

/-- The values along an axis, the other axes being at index `i`. -/
def lane (a : NDArray β) (axis : Nat) (i : List Nat) : List β :=
  (List.range (a.axisLength axis)).map fun k => a.entry (i.insertIdx axis k)

end SignalGraph.NDArray
