import SignalGraph.Graph.Basic
import SignalGraph.NDArray.Join

namespace SignalGraph

/-- An array of nodes. Its shape is independent of how many values each node puts out. -/
abbrev Fold := NDArray Node

inductive Operand (α : Type) where
  | fold (f : Fold)
  | node (n : Node)
  | scalar (c : α)
  | array (a : NDArray α)

namespace Operand

variable {α : Type}

def shape : Operand α → Shape
  | fold f => f.shape
  | array a => a.shape
  | node _ | scalar _ => []

/-- Whether the operand holds nodes. -/
def isGraph : Operand α → Bool
  | fold _ | node _ => true
  | scalar _ | array _ => false

def isFold : Operand α → Bool
  | fold _ => true
  | _ => false

def toFold : Operand α → Except GraphError Fold
  | fold f => .ok f
  | node n => .ok (.single n)
  | x => .error (.invalid (.numericOperand x.shape))

def toNode : Operand α → Except GraphError Node
  | node n => .ok n
  | fold f =>
    match f.toSingle? with
    | some n => .ok n
    | none => .error (.invalid (.notSingle f.shape))
  | x => .error (.invalid (.numericOperand x.shape))

/-- The numbers of an operand without nodes. -/
def toNumeric? : Operand α → Option (NDArray α)
  | scalar c => some (.single c)
  | array a => some a
  | _ => none

/-- Numbers as an operand, a single one without its array. -/
def ofNumeric (a : NDArray α) : Operand α :=
  match a.toSingle? with
  | some c => scalar c
  | none => array a

/-- What a method answers with: the form of what it was called on, where that holds nodes. -/
def likeReceiver (receiver result : Operand α) : Except GraphError (Operand α) :=
  match receiver with
  | fold _ => .fold <$> result.toFold
  | node _ => .node <$> result.toNode
  | _ => .ok result

/-- The same for methods whose answer is left alone on a single node. -/
def likeFold (receiver result : Operand α) : Except GraphError (Operand α) :=
  match receiver with
  | fold _ => .fold <$> result.toFold
  | _ => .ok result

/-- A function of every node of an operand. -/
def mapNodes {m : Type → Type} [Builder α m] (op : String) (f : Node → m Node) :
    Operand α → m (Operand α)
  | node n => node <$> f n
  | fold nodes => fold <$> nodes.mapM f
  | x => Builder.build (throw (.badArguments op (.numericOperand x.shape)))

end Operand

/-- What stands at one position of an operand. -/
inductive Cell (α : Type) where
  | node (n : Node)
  | scalar (c : α)

end SignalGraph
