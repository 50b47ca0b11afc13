import SignalGraph.Shape

namespace SignalGraph

/-- Values in row-major order. -/
structure NDArray (β : Type) where
  shape : Shape
  data : Vector β (Shape.size shape)

namespace NDArray

variable {β γ : Type}

def rank (a : NDArray β) : Nat := a.shape.length

def size (a : NDArray β) : Nat := Shape.size a.shape

def isEmpty (a : NDArray β) : Bool := a.size == 0

/-- The values in row-major order. -/
def toList (a : NDArray β) : List β := a.data.toList

/-- The length of an axis. -/
def axisLength (a : NDArray β) (axis : Nat) : Nat := a.shape.getD axis 0

/-- The array without axes. -/
def single (b : β) : NDArray β := ⟨[], #v[b]⟩

def get? (a : NDArray β) (i : List Nat) : Option β :=
  if Shape.Within i a.shape then a.data[Shape.offset a.shape i]? else none

/-- The value at a position that exists. -/
def entry [Inhabited β] (a : NDArray β) (i : List Nat) : β := (a.get? i).getD default

/-- The array whose values are computed from their indices. -/
def tabulate (s : Shape) (f : List Nat → β) : NDArray β :=
  ⟨s, Vector.ofFn fun p => f (Shape.unravel s p)⟩

/-- The same with effects, in row-major order. -/
def tabulateM {m : Type → Type} [Monad m] (s : Shape) (f : List Nat → m β) : m (NDArray β) :=
  (⟨s, ·⟩) <$> Vector.ofFnM fun p => f (Shape.unravel s p)

def map (f : β → γ) (a : NDArray β) : NDArray γ := ⟨a.shape, a.data.map f⟩

/-- One effect per value, in row-major order. -/
def mapM {m : Type → Type} [Monad m] (f : β → m γ) (a : NDArray β) : m (NDArray γ) :=
  (⟨a.shape, ·⟩) <$> a.data.mapM f

/-- Values in row-major order as an array of a shape. -/
def store (s : Shape) (values : List β) : Except ShapeError (NDArray β) :=
  if !Shape.addressable s then .error (.invalid (.storage .overflow))
  else if h : values.length = Shape.size s then
    .ok ⟨s, ⟨values.toArray, by simpa using h⟩⟩
  else
    .error (.invalid (.storage (if values.length < Shape.size s then .tooShort else .tooLong)))

/-- The same, counted in words first. -/
def fill (s : Shape) (values : List β) : Except ShapeError (NDArray β) :=
  if Shape.wordSize s ≠ values.length then .error (.invalid (.cannotFill values.length s))
  else store s values

/-- The only value of an array without axes. -/
def toSingle? (a : NDArray β) : Option β :=
  if a.rank = 0 then a.toList.head? else none

theorem get?_of_within {a : NDArray β} {i : List Nat} (h : Shape.Within i a.shape) :
    a.get? i = a.data[Shape.offset a.shape i]? := by
  simp [get?, h]

@[simp] theorem shape_tabulate (s : Shape) (f : List Nat → β) : (tabulate s f).shape = s := rfl

theorem get?_tabulate {s : Shape} {f : List Nat → β} {i : List Nat} (h : Shape.Within i s) :
    (tabulate s f).get? i = some (f i) := by
  have hp : Shape.offset s i < Shape.size s := Shape.offset_lt h
  have ht : (tabulate s f).get? i =
      (Vector.ofFn fun p : Fin (Shape.size s) => f (Shape.unravel s p))[Shape.offset s i]? :=
    get?_of_within h
  rw [ht, Vector.getElem?_eq_getElem hp, Vector.getElem_ofFn, Shape.unravel_offset h]

@[simp] theorem shape_map (f : β → γ) (a : NDArray β) : (a.map f).shape = a.shape := rfl

end NDArray

end SignalGraph
