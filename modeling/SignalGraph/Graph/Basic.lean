import SignalGraph.Element.Basic

namespace SignalGraph

/-- A place in a graph. -/
structure Node where
  index : Nat
deriving Repr, DecidableEq, Inhabited

inductive NodeKind (α : Type) where
  | element (e : Element α)
  /-- Stands for an integrator's value inside the integrand. -/
  | state
  | integrate (state : Node) (integrand : Option Node)

structure NodeRecord (α : Type) where
  kind : NodeKind α
  inputs : List Node
  size : Nat
  /-- Parameters for the nodes that read from here. -/
  overlay : Params α
  /-- Parameters of the node itself. -/
  explicit : Params α

namespace NodeKind

variable {α : Type}

def name : NodeKind α → String
  | element e => e.name
  | state => "state"
  | integrate .. => "integrate"

/-- The nodes that a kind names by itself. -/
def nodes : NodeKind α → List Node
  | integrate s f => s :: f.toList
  | _ => []

end NodeKind

/-- The nodes that a record leads to. -/
def NodeRecord.edges {α : Type} (r : NodeRecord α) : List Node := r.inputs ++ r.kind.nodes

/-- A node is a place in its graph, so that two nodes made alike are different nodes, and every node
leads to nodes made before it. -/
structure Graph (α : Type) where
  records : Array (NodeRecord α)
  backward : ∀ i (h : i < records.size), ∀ n ∈ records[i].edges, n.index < i

namespace Graph

variable {α : Type}

def empty : Graph α := ⟨#[], fun _ h => absurd h (Nat.not_lt_zero _)⟩

def size (g : Graph α) : Nat := g.records.size

def record? (g : Graph α) (n : Node) : Option (NodeRecord α) := g.records[n.index]?

/-- How many values a node puts out. -/
def sizeOf (g : Graph α) (n : Node) : Nat := (g.record? n).elim 0 (·.size)

def inputsOf (g : Graph α) (n : Node) : List Node := (g.record? n).elim [] (·.inputs)

def kindOf (g : Graph α) (n : Node) : String := (g.record? n).elim "" (·.kind.name)

def overlayOf (g : Graph α) (n : Node) : Params α := (g.record? n).elim .empty (·.overlay)

def explicitOf (g : Graph α) (n : Node) : Params α := (g.record? n).elim .empty (·.explicit)

def integrandOf (g : Graph α) (n : Node) : Option Node :=
  match g.record? n with
  | some ⟨.integrate _ f, _, _, _, _⟩ => f
  | _ => none

/-- The graph with one more node, which leads to nodes of the graph. -/
def push (g : Graph α) (r : NodeRecord α) (h : ∀ n ∈ r.edges, n.index < g.size) : Graph α where
  records := g.records.push r
  backward i hi n hn := by
    rw [Array.getElem_push] at hn
    split at hn
    · exact g.backward i ‹_› n hn
    · have := h n hn
      simp only [Array.size_push] at hi
      simp only [size] at this
      omega

end Graph

/-- Construction of nodes: the graph grows, or an error says why nothing is built. -/
abbrev Build (α : Type) := StateT (Graph α) (Except GraphError)

namespace Build

variable {α : Type}

def ofShape {β : Type} : Except ShapeError β → Build α β
  | .ok b => pure b
  | .error e => throw (.shape e)

def ofGraph {β : Type} : Except GraphError β → Build α β
  | .ok b => pure b
  | .error e => throw e

def sizeOf (n : Node) : Build α Nat := return (← get).sizeOf n

def add (r : NodeRecord α) : Build α Node := do
  let g ← get
  if h : ∀ n ∈ r.edges, n.index < g.size then
    set (g.push r h)
    return ⟨g.size⟩
  else throw .foreignNode

/-- A node of an element, refused unless the element takes inputs of these sizes. -/
def element (e : Element α) (inputs : List Node) (explicit : Params α) : Build α Node := do
  let sizes ← inputs.mapM sizeOf
  let size ← ofGraph (e.sizeOut sizes)
  if size = 0 then throw (.invalid (.emptyOutput e.name))
  add ⟨.element e, inputs, size, .empty, explicit⟩

end Build

/-- Computations that construction of nodes can be part of. -/
class Builder (α : outParam Type) (m : Type → Type) extends Monad m where
  build : {β : Type} → Build α β → m β

instance (α : Type) : Builder α (Build α) := ⟨id⟩

end SignalGraph
