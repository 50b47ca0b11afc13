import SignalGraph.Dispatch.Registry
import SignalGraph.Graph.Construct

namespace SignalGraph

namespace Builtin

variable {α : Type} [Scalar α]

/-- The node of a two-operand operation at one position. -/
def binaryNode (name : String) : List (Cell α) → Build α Node
  | [.node a, .node b] =>
    match name with
    | "add" => Build.affine name [(a, Scalar.one), (b, Scalar.one)] Scalar.zero
    | "subtract" => Build.affine name [(a, Scalar.one), (b, -Scalar.one)] Scalar.zero
    | "multiply" => Build.product a b
    | _ => throw (.badArguments name .noGraphOperand)
  | [.node a, .scalar c] =>
    match name with
    | "add" => Build.affine name [(a, Scalar.one)] c
    | "subtract" => Build.affine name [(a, Scalar.one)] (-c)
    | "multiply" => Build.scale a c
    | "divide" =>
      if Scalar.same c Scalar.zero then throw (.badArguments name .divisionByZero)
      else Build.scale a (Scalar.one / c)
    | "power" => Build.decode a (fun xs => xs.map (Scalar.pow · c)) none .empty
    | _ => throw (.badArguments name .noGraphOperand)
  | [.scalar c, .node a] =>
    match name with
    | "add" => Build.affine name [(a, Scalar.one)] c
    | "subtract" => Build.affine name [(a, -Scalar.one)] c
    | "multiply" => Build.scale a c
    | _ => throw (.badArguments name .noGraphOperand)
  | _ => throw (.badArguments name .noGraphOperand)

/-- Two operands position by position. Only numbers may divide or be exponents. -/
def binary (name : String) : Handler α := fun _ operands _ => do
  match operands with
  | [_, b] =>
    if (name = "divide" || name = "power") && b.isGraph then return none
    some <$> Operand.broadcastMap operands (binaryNode name)
  | _ => throw (.badArguments name .expectsTwo)

def unaryNode (name : String) (f : α → α) : List (Cell α) → Build α Node
  | [.node n] =>
    if name = "negative" then Build.negate n else Build.decode n (fun xs => xs.map f) none .empty
  | _ => throw (.badArguments name .expectedGraph)

/-- One operand position by position: the negative is linear, other functions are decoded. -/
def unary (name : String) : Handler α := fun _ operands _ => do
  match Numeric.unary? name, operands with
  | none, _ => throw (.badArguments name .notUnary)
  | some f, [_] => some <$> Operand.broadcastMap operands (unaryNode name f)
  | some _, _ => throw (.badArguments name .expectsOne)

/-- How the nodes of a lane are added up. -/
inductive Reduction (α : Type) where
  | sum
  | mean
  | weighted (weights : List α)

/-- The sum of a lane, each node times its weight. -/
def Reduction.node (r : Reduction α) (op : String) (lane : List Node) : Build α Node := do
  if lane.isEmpty then throw (.badArguments op .emptyAxis)
  match r with
  | .sum => Build.affine op (lane.map (·, Scalar.one)) Scalar.zero
  | .mean =>
    Build.affine op (lane.map (·, Scalar.one / Scalar.ofNat lane.length)) Scalar.zero
  | .weighted weights =>
    if weights.length ≠ lane.length then throw (.sizeMismatch op lane.length weights.length)
    Build.affine op (lane.zip weights) Scalar.zero

/-- A node per lane along an axis, in the shape without that axis. Where lanes are empty, the first one
tells what becomes of all. -/
def mapLanes (f : Fold) (axis : Nat) (build : List Node → Build α Node) : Build α Fold := do
  let s := f.shape.eraseIdx axis
  if f.axisLength axis = 0 && Shape.size s ≠ 0 then discard <| build []
  NDArray.tabulateM s fun i => build (f.lane axis i)

/-- A reduction along an axis, or of all nodes into one. -/
def reduceFold (op : String) (r : Reduction α) (f : Fold) : Option Nat → Build α (Operand α)
  | none => .node <$> r.node op f.toList
  | some axis => .fold <$> mapLanes f axis (r.node op)

/-- A parameter that has to be a whole number. -/
def intParam (op key : String) (params : Params α) : Build α (Option Int) :=
  match params.get? key with
  | none => return none
  | some v =>
    match v.toInt? with
    | some i => return some i
    | none => throw (.badArguments op (.notInt key v.typeName))

/-- The axis that the parameters name, the first one if they do not. -/
def axisParam (op : String) (params : Params α) (rank : Nat) : Build α Nat := do
  let axis ← intParam op "axis" params
  Build.ofShape (Shape.signedAxis (axis.getD 0) rank)

def reduce (op : String) (r : Reduction α) : Handler α := fun _ operands params => do
  match operands with
  | [x] =>
    if !x.isGraph then return none
    let f ← Build.ofGraph x.toFold
    match ← intParam op "axis" params with
    | none => some <$> reduceFold op r f none
    | some axis =>
      let axis ← Build.ofShape (Shape.signedAxis axis f.rank)
      some <$> reduceFold op r f (some axis)
  | _ => throw (.badArguments op .expectsOne)

/-- The numbers of an operand with one axis. -/
def vector? (x : Operand α) : Option (List α) :=
  match x.toNumeric? with
  | some a => if a.rank = 1 then some a.toList else none
  | none => none

def matrix? (x : Operand α) : Option (Matrix α) := x.toNumeric?.bind Matrix.ofNDArray?

/-- The weighted sum along the last axis. -/
def dot : Handler α := fun _ operands _ => do
  match operands with
  | [x, weights] =>
    if !x.isGraph then return none
    match vector? weights with
    | none => throw (.badArguments "dot" .weightsRank)
    | some weights =>
      let f ← Build.ofGraph x.toFold
      if f.rank = 0 then throw (.badArguments "dot" .noAxis)
      some <$> reduceFold "dot" (.weighted weights) f (some (f.rank - 1))
  | _ => throw (.badArguments "dot" .operandAndWeights)

/-- The operands as arrays of nodes, nothing if one holds numbers. -/
def folds (op : String) (operands : List (Operand α)) : Build α (Option (List Fold)) := do
  if operands.isEmpty then throw (.badArguments op .expectsSome)
  if !operands.all Operand.isGraph then return none
  some <$> operands.mapM fun x => Build.ofGraph x.toFold

def firstRank : List Fold → Nat
  | f :: _ => f.rank
  | [] => 0

def concatenate : Handler α := fun _ operands params => do
  match ← folds "concatenate" operands with
  | none => return none
  | some fs =>
    let axis ← axisParam "concatenate" params (firstRank fs)
    return some (.fold (← Build.ofShape (NDArray.concatenate fs axis)))

/-- Stacking along a later axis gives each array that axis and lays them along it. -/
def stackAlong (fs : List Fold) (axis : Nat) : Except ShapeError Fold := do
  if axis = 0 then NDArray.stack fs
  else NDArray.concatenate (← fs.mapM (·.insertAxis axis)) axis

def stack : Handler α := fun _ operands params => do
  match ← folds "stack" operands with
  | none => return none
  | some fs =>
    let axis ← axisParam "stack" params (firstRank fs + 1)
    return some (.fold (← Build.ofShape (stackAlong fs axis)))

def transform : Handler α := fun _ operands _ => do
  match operands with
  | [x, matrix] =>
    if !x.isGraph then return none
    match matrix with
    | .scalar c => some <$> x.mapNodes "transform" (fun n => Build.scale n c)
    | _ =>
      match matrix? matrix with
      | some m => some <$> x.mapNodes "transform" (fun n => Build.transform n m)
      | none => throw (.badArguments "transform" .matrixRank)
  | _ => throw (.badArguments "transform" .operandAndMatrix)

/-- The lanes along an axis bundled into nodes. -/
def bundle : Handler α := fun _ operands params => do
  match operands with
  | [x] =>
    if !x.isGraph then return none
    let f ← Build.ofGraph x.toFold
    let axis ← axisParam "bundle" params f.rank
    return some (.fold (← mapLanes f axis Build.bundle))
  | _ => throw (.badArguments "bundle" .expectsOne)

/-- The components of every node, one behind the other along a new last axis. -/
def components (f : Fold) (size : Nat) : Build α (List Node) :=
  List.flatten <$> f.toList.mapM fun n => (List.range size).mapM fun k => Build.slice n [k]

/-- The components of the nodes along a new axis. -/
def unbundle : Handler α := fun _ operands params => do
  match operands with
  | [x] =>
    if !x.isGraph then return none
    let f ← Build.ofGraph x.toFold
    let axis ← axisParam "unbundle" params (f.rank + 1)
    let sizes ← f.toList.mapM Build.sizeOf
    let size := sizes.headD 0
    match sizes.find? (· ≠ size) with
    | some other => throw (.invalid (.unbundleSizes size other))
    | none =>
      let nodes ← components f size
      let trailing ← Build.ofShape (NDArray.fill (f.shape ++ [size]) nodes)
      let axes := (List.range f.rank).insertIdx axis f.rank
      return some (.fold (← Build.ofShape (trailing.permute axes)))
  | _ => throw (.badArguments "unbundle" .expectsOne)

def filter : Handler α := fun _ operands params => do
  match operands with
  | [x] =>
    if !x.isGraph then return none
    let tau ←
      match params.get? "tau" with
      | none => pure none
      | some v =>
        match v.toScalar? with
        | some tau => pure (some tau)
        | none => throw (.badArguments "filter" (.notFloat "tau" v.typeName))
    some <$> x.mapNodes "filter" (fun n => Build.filter n tau)
  | _ => throw (.badArguments "filter" .expectsOne)

def binaryNames : List String := ["add", "subtract", "multiply", "divide", "power"]

def unaryNames : List String :=
  ["negative", "sin", "cos", "tanh", "exp", "abs", "square", "sqrt", "relu"]

/-- All of them under their kinds and names, in the order in which they are registered. -/
def registrations : List (Registration α) :=
  binaryNames.map (fun name => ⟨.ufunc, name, binary name⟩) ++
  unaryNames.map (fun name => ⟨.ufunc, name, unary name⟩) ++
  [⟨.function, "sum", reduce "sum" .sum⟩, ⟨.function, "mean", reduce "mean" .mean⟩,
    ⟨.function, "dot", dot⟩, ⟨.function, "concatenate", concatenate⟩,
    ⟨.function, "stack", stack⟩, ⟨.method, "transform", transform⟩,
    ⟨.method, "bundle", bundle⟩, ⟨.method, "unbundle", unbundle⟩,
    ⟨.method, "filter", filter⟩]

end Builtin

/-- The registry of the built-in handlers alone. -/
def Registry.builtin {α : Type} [Scalar α] : Registry α :=
  Registry.empty.registerAll Builtin.registrations

end SignalGraph
