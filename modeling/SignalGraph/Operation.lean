import SignalGraph.Dispatch.Builtin

namespace SignalGraph.Operation

variable {α : Type} (d : Dispatcher α)

def stimuli (values : NDArray α) : Build α (Operand α) :=
  .fold <$> values.mapM fun v => Build.stimulus (.constant [v])

def stimuliSignals (signals : NDArray (Signal α)) : Build α (Operand α) :=
  .fold <$> signals.mapM Build.stimulus

/-- An elementwise operation by its name. -/
def ufunc (name : String) (operands : List (Operand α)) : Build α (Operand α) :=
  d .ufunc name operands .empty

def power (x : Operand α) (exponent : α) : Build α (Operand α) :=
  ufunc d "power" [x, .scalar exponent]

/-- An elementwise operation applied again and again. -/
def chain (name : String) (x : Operand α) : Nat → Build α (Operand α)
  | 0 => return x
  | times + 1 => do chain name (← ufunc d name [x]) times

def transform (x : Operand α) (m : Matrix α) : Build α (Operand α) :=
  d .method "transform" [x, .array m.toNDArray] .empty

/-- The parameters that name an axis. -/
def axisParams (axis : Option Int) : Params α :=
  match axis with
  | some i => KeyMap.empty.insert "axis" (.int i)
  | none => .empty

/-- The parameters that name an axis given as a word. -/
def wordAxis (axis : Nat) : Params α := axisParams (some (signedWord axis))

def bundle (x : Operand α) (axis : Nat) : Build α (Operand α) :=
  d .method "bundle" [x] (wordAxis axis)

def unbundle (x : Operand α) (axis : Nat) : Build α (Operand α) :=
  d .method "unbundle" [x] (wordAxis axis)

def filter (x : Operand α) (tau : Option α) : Build α (Operand α) :=
  d .method "filter" [x]
    (match tau with
    | some t => KeyMap.empty.insert "tau" (.float t)
    | none => .empty)

def sum (x : Operand α) (axis : Option Int) : Build α (Operand α) :=
  d .function "sum" [x] (axisParams axis)

def mean (x : Operand α) (axis : Option Int) : Build α (Operand α) :=
  d .function "mean" [x] (axisParams axis)

def dot (x : Operand α) (weights : List α) : Build α (Operand α) :=
  d .function "dot"
    [x, .array ⟨[weights.length], ⟨weights.toArray, by simp [Shape.size]⟩⟩] .empty

def concatenate (folds : List Fold) (axis : Nat) : Build α (Operand α) :=
  d .function "concatenate" (folds.map .fold) (wordAxis axis)

def stack (folds : List Fold) (axis : Nat) : Build α (Operand α) :=
  d .function "stack" (folds.map .fold) (wordAxis axis)

def decode [Scalar α] (x : Operand α) (function : VectorFunction α) (size : Option Nat)
    (explicit : Params α) : Build α (Operand α) :=
  x.mapNodes "decode" fun n => Build.decode n function size explicit

def slice [Scalar α] (x : Operand α) (indices : List Nat) : Build α (Operand α) :=
  x.mapNodes "slice" (Build.slice · indices)

def configure (x : Operand α) (overlay : Params α) : Build α (Operand α) :=
  x.mapNodes "configure" (Build.configure · overlay)

section

variable {m : Type → Type} [Builder α m]

def integrate (u : Operand α) (integrand : Option (Node → m Node)) : m (Operand α) :=
  u.mapNodes "integrate" (Build.integrate · integrand)

/-- The rate of a linear system as a function of its state. -/
def stateRate (a : Matrix α) (state : Option (Node → m Node)) (x : Node) : m Node := do
  let x ←
    match state with
    | some f => f x
    | none => pure x
  Builder.build (Build.transform x a)

/-- The linear system driven by `u` through the matrix `b`, with the state matrix `a`. -/
def lti (u : Operand α) (a b : Matrix α) (state : Option (Node → m Node)) : m (Operand α) := do
  let driven ← Builder.build (transform d u b)
  integrate driven (some (stateRate a state))

end

namespace Method

/-- An operation of two operands as a method of the first. -/
def binary (name : String) (a b : Operand α) : Build α (Operand α) := do
  Build.ofGraph (a.likeFold (← ufunc d name [a, b]))

/-- An answer in the form of the operand that the method was called on. -/
def settle (receiver : Operand α) (answer : Build α (Operand α)) : Build α (Operand α) := do
  Build.ofGraph (receiver.likeReceiver (← answer))

def apply (name : String) (x : Operand α) : Build α (Operand α) := settle x (ufunc d name [x])

def power (x : Operand α) (exponent : α) : Build α (Operand α) :=
  settle x (Operation.power d x exponent)

def transform (x : Operand α) (m : Matrix α) : Build α (Operand α) :=
  settle x (Operation.transform d x m)

def filter (x : Operand α) (tau : Option α) : Build α (Operand α) :=
  settle x (Operation.filter d x tau)

def bundle (x : Operand α) (axis : Nat) : Build α (Operand α) := do
  Build.ofGraph (x.likeFold (← Operation.bundle d x axis))

/-- The components along a new axis, which is the only one for a single node. -/
def unbundle (x : Operand α) (axis : Nat) : Build α (Operand α) := do
  match x with
  | .node _ => .fold <$> Build.ofGraph (← Operation.unbundle d x 0).toFold
  | _ => Build.ofGraph (x.likeFold (← Operation.unbundle d x axis))

def dot (x : Operand α) (weights : List α) : Build α (Operand α) := do
  Build.ofGraph (x.likeFold (← Operation.dot d x weights))

/-- The linear system, whose driving transform answers in the form of a single node. -/
def lti {m : Type → Type} [Builder α m] (u : Operand α) (a b : Matrix α)
    (state : Option (Node → m Node)) : m (Operand α) := do
  match u with
  | .node _ =>
    let driven ← Builder.build (Method.transform d u b)
    integrate driven (some (stateRate a state))
  | _ =>
    let answer ← Operation.lti d u a b state
    Builder.build (Build.ofGraph (u.likeFold answer))

end Method

end SignalGraph.Operation
