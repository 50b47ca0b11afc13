import SignalGraph.Graph.Basic
import SignalGraph.Element.Builtin

namespace SignalGraph.Build

variable {α : Type}

def stimulus (signal : Signal α) : Build α Node := element (.stimulus signal) [] .empty

/-- The sum of the inputs, each times its matrix. -/
def linear (inputs : List Node) (matrices : List (Matrix α)) : Build α Node :=
  element (.transform matrices) inputs .empty

def transform (n : Node) (m : Matrix α) : Build α Node := linear [n] [m]

/-- Other parameters for what lies before a node. -/
def configure (n : Node) (overlay : Params α) : Build α Node := do
  add ⟨.element .configure, [n], ← sizeOf n, overlay, .empty⟩

variable [Scalar α]

/-- The coefficient of an input of one value or of `size` values in a sum of `size` values. The square
block of `size` rows is written out in full, so that there is room for it up to `entryLimit` only. -/
def coefficientBlock (size inputSize : Nat) (c : α) : Matrix α :=
  if inputSize = size then (Matrix.identity size).scale c else .constantColumn size c

/-- A sum of nodes times numbers, plus a constant. Nodes of one value are added to every component. -/
def affine (op : String) (terms : List (Node × α)) (constant : α) : Build α Node := do
  let sized ← terms.mapM fun (n, c) => return (n, c, ← sizeOf n)
  let size := (sized.map fun t => t.2.2).max?.getD 1
  match sized.find? fun t => t.2.2 ≠ size && t.2.2 ≠ 1 with
  | some (_, _, s) => throw (.sizeMismatch op size s)
  | none =>
    let inputs := terms.map Prod.fst
    let blocks := sized.map fun (_, c, s) => coefficientBlock size s c
    if Scalar.same constant Scalar.zero then linear inputs blocks
    else
      let offset ← stimulus (.constant [constant])
      linear (inputs ++ [offset]) (blocks ++ [.constantColumn size Scalar.one])

def scale (n : Node) (c : α) : Build α Node := affine "multiply" [(n, c)] Scalar.zero

def negate (n : Node) : Build α Node := affine "negative" [(n, -Scalar.one)] Scalar.zero

/-- A function of a node. Without a size it has to keep the size, which is tried out on zeros. -/
def decode (n : Node) (function : VectorFunction α) (size : Option Nat) (explicit : Params α) :
    Build α Node := do
  match size with
  | some size => element (.decode function size) [n] explicit
  | none =>
    let size ← sizeOf n
    let produced := (function (List.replicate size Scalar.zero)).length
    if produced ≠ size then throw (.sizeMismatch "decode" size produced)
    element (.decode function size) [n] explicit

def slice (n : Node) (indices : List Nat) : Build α Node :=
  element (.slice indices) [n] .empty

def bundle (nodes : List Node) : Build α Node := element .bundle nodes .empty

omit [Scalar α] in
/-- A vector of one value in place of `size` equal ones. -/
def stretch (size : Nat) (xs : List α) : List α :=
  match xs with
  | [x] => List.replicate size x
  | _ => xs

/-- The product by components of the first `split` values and the others. -/
def splitProduct (split size : Nat) : VectorFunction α := fun xs =>
  List.zipWith (· * ·) (stretch size (xs.take split)) (stretch size (xs.drop split))

/-- The product of two nodes by components. A node of one value multiplies every component. -/
def product (a b : Node) : Build α Node := do
  let sizeA ← sizeOf a
  let sizeB ← sizeOf b
  if sizeA ≠ sizeB && sizeA ≠ 1 && sizeB ≠ 1 then throw (.sizeMismatch "multiply" sizeA sizeB)
  let size := max sizeA sizeB
  let joined ← bundle [a, b]
  decode joined (splitProduct sizeA size) (some size) .empty

def filter (n : Node) (tau : Option α) : Build α Node := do
  match tau with
  | none => element .filter [n] .empty
  | some tau =>
    if !Scalar.atMost Scalar.zero tau then
      throw (.badArguments "filter" (.negativeTime (Scalar.text tau)))
    element .filter [n] (KeyMap.empty.insert "synapse" (.float tau))

omit [Scalar α] in
/-- The integral of a node over time, whose rate may also depend on the integral itself: `integrand`
makes that part of the rate from the state. -/
def integrate {m : Type → Type} [Builder α m] (u : Node) (integrand : Option (Node → m Node)) :
    m Node := do
  let size ← Builder.build (sizeOf u)
  let state ← Builder.build (add ⟨.state, [u], size, .empty, .empty⟩)
  match integrand with
  | none => Builder.build (add ⟨.integrate state none, [u], size, .empty, .empty⟩)
  | some f =>
    let rate ← f state
    Builder.build do
      let actual ← sizeOf rate
      if actual ≠ size then throw (.sizeMismatch "integrate" size actual)
      add ⟨.integrate state (some rate), [u], size, .empty, .empty⟩

end SignalGraph.Build
