import SignalGraph.Dispatch.Numeric

namespace SignalGraph

inductive DispatchKind where
  | ufunc
  | function
  | method
deriving Repr, DecidableEq

def DispatchKind.text : DispatchKind → String
  | ufunc => "ufunc"
  | function => "function"
  | method => "method"

def DispatchKind.ofText? : String → Option DispatchKind
  | "ufunc" => some ufunc
  | "function" => some function
  | "method" => some method
  | _ => none

/-- An operation by its kind and name, on operands and with parameters. -/
abbrev Dispatcher (α : Type) :=
  DispatchKind → String → List (Operand α) → Params α → Build α (Operand α)

/-- Answers an operation, or declines with nothing. The dispatcher is there for handlers that go on to
other operations. -/
abbrev Handler (α : Type) :=
  Dispatcher α → List (Operand α) → Params α → Build α (Option (Operand α))

structure Registration (α : Type) where
  kind : DispatchKind
  name : String
  handler : Handler α

/-- Registrations, the newest first. -/
structure Registry (α : Type) where
  history : List (Registration α)

namespace Registry

variable {α : Type}

def empty : Registry α := ⟨[]⟩

def register (r : Registry α) (kind : DispatchKind) (name : String) (handler : Handler α) :
    Registry α :=
  ⟨⟨kind, name, handler⟩ :: r.history⟩

/-- Registrations one after the other, the first of the list first. -/
def registerAll (r : Registry α) (es : List (Registration α)) : Registry α :=
  es.foldl (fun r e => r.register e.kind e.name e.handler) r

/-- The handlers under a kind and name, the newest first. -/
def chain (r : Registry α) (kind : DispatchKind) (name : String) : List (Handler α) :=
  (r.history.filter fun e => e.kind = kind && e.name = name).map (·.handler)

/-- The first answer of a list of handlers. Nothing holds on to the nodes that a handler made before it
declined, so the next one starts from the graph as it was. -/
def firstAnswer (d : Dispatcher α) (operands : List (Operand α)) (params : Params α) :
    List (Handler α) → Build α (Option (Operand α))
  | [] => return none
  | h :: hs => do
    let g ← get
    match ← h d operands params with
    | some x => return some x
    | none =>
      set g
      firstAnswer d operands params hs

variable [Scalar α]

/-- The answer of the registry, whose handlers dispatch through `d`. -/
def call (r : Registry α) (d : Dispatcher α) : Dispatcher α := fun kind name operands params => do
  if kind = .ufunc && !operands.any Operand.isGraph then
    Build.ofGraph (Numeric.apply name operands)
  else
    let handlers := r.chain kind name
    if handlers.isEmpty then throw (.dispatch (.noImplementation name))
    match ← firstAnswer d operands params handlers with
    | some x => return x
    | none => throw (.dispatch (.allDeclined name handlers.length))

/-- Dispatch where handlers may go on dispatching `depth` times one inside the other. -/
def dispatchWithin (r : Registry α) : Nat → Dispatcher α
  | 0 => fun _ name _ _ => throw (.dispatch (.endless name))
  | depth + 1 => r.call (r.dispatchWithin depth)

/-- Dispatch through the registry. Handlers that hand on what they were given can only be in each
other's way as often as there are registrations, unless they never end. -/
def dispatch (r : Registry α) : Dispatcher α := r.dispatchWithin (r.history.length + 1)

end Registry

end SignalGraph
