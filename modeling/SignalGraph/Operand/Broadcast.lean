import SignalGraph.Operand.Basic
import SignalGraph.Scalar

namespace SignalGraph.Operand

variable {α : Type} [Scalar α]

instance : Inhabited (Cell α) := ⟨.scalar Scalar.zero⟩

def cells : Operand α → NDArray (Cell α)
  | fold f => f.map .node
  | node n => .single (.node n)
  | scalar c => .single (.scalar c)
  | array a => a.map .scalar

/-- The operands stretched to a shape. -/
def spreadCells (s : Shape) (operands : List (Operand α)) :
    Except GraphError (List (NDArray (Cell α))) :=
  operands.mapM fun x =>
    match x.cells.spread? s with
    | some c => .ok c
    | none => .error (.invalid (.cannotSpread x.shape s))

/-- A node per position of the common shape: a single node where there are no axes and no array of
nodes among the operands, else an array of that shape. -/
def broadcastMap {m : Type → Type} [Builder α m] (operands : List (Operand α))
    (build : List (Cell α) → m Node) : m (Operand α) := do
  let s ← Builder.build (Build.ofShape (Shape.broadcastAll (operands.map shape)))
  let columns ← Builder.build (Build.ofGraph (spreadCells s operands))
  let nodes ← NDArray.tabulateM s fun i => build (columns.map (·.entry i))
  match nodes.toSingle? with
  | some n => return if operands.any isFold then fold nodes else node n
  | none => return fold nodes

end SignalGraph.Operand
