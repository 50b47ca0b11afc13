import SignalGraph.Dispatch.Builtin

namespace SignalGraph.Handler

variable {α : Type}

def decline : Handler α := fun _ _ _ => return none

def refuse (reason : String) : Handler α := fun _ _ _ =>
  throw (.badArguments "handler" (.custom reason))

/-- The operand at a place, which has to be there. -/
def operandAt (operands : List (Operand α)) (place : Nat) : Build α (Operand α) :=
  match operands[place]? with
  | some x => return x
  | none => throw (.badArguments "handler" (.custom "no operand"))

def operand (place : Nat) : Handler α := fun _ operands _ => some <$> operandAt operands place

def scalar (c : α) : Handler α := fun _ _ _ => return some (.scalar c)

/-- Another handler, where a parameter is given. -/
def whenParam (key : String) (handler : Handler α) : Handler α := fun d operands params =>
  if params.contains key then handler d operands params else return none

/-- Another operation on the same operands and with the same parameters. -/
def redirect (kind : DispatchKind) (name : String) : Handler α := fun d operands params =>
  some <$> d kind name operands params

variable [Scalar α]

/-- The first operand, as a node, times a number. -/
def scale (c : α) : Handler α := fun _ operands _ => do
  let n ← Build.ofGraph (← operandAt operands 0).toNode
  return some (.node (← Build.scale n c))

/-- The first operand times a number, where it is a single node. -/
def scaleNode (c : α) : Handler α := fun _ operands _ => do
  match operands.head? with
  | some (.node n) => return some (.node (← Build.scale n c))
  | _ => return none

end SignalGraph.Handler
