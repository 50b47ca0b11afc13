import SignalGraph.NDArray.Views

namespace SignalGraph.NDArray

variable {β : Type} [Inhabited β]

/-- Arrays of one shape as the parts of a new first axis. -/
def stack (arrays : List (NDArray β)) : Except ShapeError (NDArray β) :=
  match arrays with
  | [] => .error (.invalid .emptyStack)
  | first :: _ =>
    match arrays.find? (·.shape != first.shape) with
    | some ragged => .error (.invalid (.ragged first.shape ragged.shape))
    | none => fill (arrays.length :: first.shape) (arrays.flatMap toList)

/-- Whether two shapes differ at most in the length of one axis. -/
def joinable (axis : Nat) (s t : Shape) : Bool :=
  s.length == t.length && s.eraseIdx axis == t.eraseIdx axis

/-- The value at an index of the arrays laid one behind the other along an axis. -/
def entryAlong (axis : Nat) : List (NDArray β) → List Nat → β
  | [], _ => default
  | a :: rest, i =>
    let k := i.getD axis 0
    if k < a.axisLength axis then a.entry i
    else entryAlong axis rest (i.set axis (k - a.axisLength axis))

/-- Arrays laid one behind the other along an axis. -/
def concatenate (arrays : List (NDArray β)) (axis : Nat) : Except ShapeError (NDArray β) := do
  match arrays with
  | [] => throw (.invalid .emptyConcatenation)
  | first :: _ =>
    Shape.checkAxis axis first.rank
    match arrays.find? fun a => !joinable axis first.shape a.shape with
    | some other => throw (.invalid (.cannotConcatenate first.shape other.shape axis))
    | none =>
      let s := first.shape.set axis (Shape.total (arrays.map (axisLength · axis)))
      if !Shape.addressable s then throw (.invalid (.storage .overflow))
      return tabulate s (entryAlong axis arrays)

end SignalGraph.NDArray
