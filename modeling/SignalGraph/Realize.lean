import SignalGraph.Graph.Overlay
import SignalGraph.Operand.Basic
import SignalGraph.Network.Target

namespace SignalGraph

/-- A target with the handles of the nodes realized on it. -/
structure Realization (α σ : Type) where
  target : σ
  memo : List (Node × Handle)
  poisoned : Bool
  reports : Array (Report α)

/-- Steps of a realization; what they did to it stays when they fail. -/
abbrev Realize (α σ : Type) := ExceptT RealizeError (StateM (Realization α σ))

namespace Realization

variable {α σ : Type}

def start (target : σ) : Realization α σ := ⟨target, [], false, #[]⟩

/-- The handle of a realized node. -/
def built (r : Realization α σ) (n : Node) : Option Handle := r.memo.lookup n

/-- How many nodes are realized. -/
def size (r : Realization α σ) : Nat := r.memo.length

end Realization

namespace Realize

variable {α σ : Type}

/-- A call on the target. -/
def onTarget {β : Type} (call : Effect σ β) : Realize α σ β := fun r =>
  let (answer, target) := call r.target
  (answer.mapError .network, { r with target })

def ofParams {β : Type} : Except ParamError β → Realize α σ β
  | .ok b => pure b
  | .error e => throw (.params e)

def remember (n : Node) (h : Handle) : Realize α σ Unit :=
  modify fun r => { r with memo := (n, h) :: r.memo }

/-- The conversation of a lowering with the target. -/
def converse (t : Target α σ) : Lowering α → Realize α σ Handle
  | .done h => return h
  | .fail e => throw e
  | .create r next => do
    let h ← onTarget (t.create r)
    converse t (next h)
  | .connect feedback integrand next => do
    onTarget (t.connect feedback integrand)
    converse t next
  | .partialConnections next => do
    let available := t.partialConnections (← get).target
    converse t (next available)
  | .report r next => do
    modify fun s => { s with reports := s.reports.push r }
    converse t next

/-- The object of an element whose inputs are realized, which has to be of the node's size. -/
def lower (t : Target α σ) (e : Element α) (size : Nat) (inputs : List Handle)
    (config : ResolvedConfig α) : Realize α σ Handle := do
  let h ← converse t (e.lower inputs config)
  if h.size ≠ size then throw (.sizeMismatch e.name size h.size)
  return h

variable (t : Target α σ) (g : Graph α) (defaults : Defaults α)

/-- The handle of the node at a place of the graph. -/
def place (i : Nat) : Realize α σ Handle := do
  match (← get).built ⟨i⟩ with
  | some h => return h
  | none =>
    if hi : i < g.records.size then
      match hk : g.records[i].kind with
      | .state => throw .unboundState
      | .integrate state integrand =>
        let inputs ← g.records[i].inputs.attach.mapM fun ⟨n, _⟩ => place n.index
        match inputs with
        | [] => throw .unboundState
        | u :: _ =>
          let feedback ← onTarget (t.create (.feedback u))
          remember state feedback
          match hf : integrand with
          | some f =>
            let rate ← place f.index
            onTarget (t.connect feedback rate)
          | none => pure ()
          remember ⟨i⟩ feedback
          return feedback
      | .element e =>
        ofParams (g.checkOverlay ⟨i⟩ defaults)
        let config ← ofParams (g.resolve ⟨i⟩ e.configurable defaults)
        let inputs ← g.records[i].inputs.attach.mapM fun ⟨n, _⟩ => place n.index
        let h ← lower t e g.records[i].size inputs config
        remember ⟨i⟩ h
        return h
    else throw .foreignNode
termination_by i
decreasing_by
  · exact g.backward i hi n (List.mem_append_left _ ‹_›)
  · refine g.backward i hi f (List.mem_append_right _ ?_)
    simp [hk, hf, NodeKind.nodes]
  · exact g.backward i hi n (List.mem_append_left _ ‹_›)

/-- The handle of a node. A failure ends the realization: what was realized is forgotten. -/
def make (n : Node) : Realize α σ Handle := do
  if (← get).poisoned then throw .poisoned
  tryCatch (place t g defaults n.index) fun e => do
    modify fun r => { r with memo := [], poisoned := true }
    throw e

/-- The handles of an array of nodes, in row-major order. -/
def makeFold (f : Fold) : Realize α σ (NDArray Handle) := f.mapM (make t g defaults)

end Realize

end SignalGraph
