import SignalGraph.Scalar
import SignalGraph.KeyMap
import SignalGraph.Text.Quoted

namespace SignalGraph

inductive ParamValue (α : Type) where
  | bool (b : Bool)
  | int (i : Int)
  | float (x : α)
  | text (s : String)

/-- Why a node's configuration was refused. -/
inductive ParamError where
  | unknownParameter (key kind : String)
  | invalidValue (key expected found : String)
  | missingValue (key kind : String)
deriving Repr, DecidableEq

def ParamError.message : ParamError → String
  | unknownParameter key kind => s!"Unknown parameter '{key}' on {kind} node"
  | invalidValue key expected found => s!"Parameter '{key}' expects {expected}, got {found}"
  | missingValue key kind => s!"No value or default for parameter '{key}' of {kind} node"

namespace ParamValue

variable {α : Type}

def typeName : ParamValue α → String
  | bool _ => "bool"
  | int _ => "int"
  | float _ => "float"
  | text _ => "string"

def toBool? : ParamValue α → Option Bool
  | bool b => some b
  | _ => none

def toInt? : ParamValue α → Option Int
  | int i => some i
  | _ => none

def toText? : ParamValue α → Option String
  | text s => some s
  | _ => none

variable [Scalar α]

/-- Whole numbers count as numbers. -/
def toScalar? : ParamValue α → Option α
  | float x => some x
  | int i => some (Scalar.ofInt i)
  | _ => none

/-- The value as messages write it, texts in quotes. -/
def display : ParamValue α → String
  | bool b => if b then "true" else "false"
  | int i => toString i
  | float x => Scalar.text x
  | text s => Text.quoted s

end ParamValue

/-- Parameter values under their names. -/
abbrev Params (α : Type) := KeyMap (ParamValue α)

/-- The value of every parameter that a kind of node declares. -/
structure ResolvedConfig (α : Type) where
  kind : String
  values : Params α

namespace ResolvedConfig

variable {α β : Type}

def value (c : ResolvedConfig α) (key : String) : Except ParamError (ParamValue α) :=
  match c.values.get? key with
  | some v => .ok v
  | none => .error (.unknownParameter key c.kind)

variable [Scalar α]

/-- A value read in one way, `expected` saying what it has to be. -/
def read (c : ResolvedConfig α) (key expected : String) (view : ParamValue α → Option β) :
    Except ParamError β := do
  let v ← c.value key
  match view v with
  | some b => return b
  | none => throw (.invalidValue key expected (v.typeName ++ " " ++ v.display))

def scalar (c : ResolvedConfig α) (key : String) : Except ParamError α :=
  c.read key "a number" ParamValue.toScalar?

def int (c : ResolvedConfig α) (key : String) : Except ParamError Int :=
  c.read key "an int" ParamValue.toInt?

def nat (c : ResolvedConfig α) (key : String) : Except ParamError Nat :=
  c.read key "a non-negative int" fun v => v.toInt?.bind Int.toNat?

def bool (c : ResolvedConfig α) (key : String) : Except ParamError Bool :=
  c.read key "a bool" ParamValue.toBool?

def text (c : ResolvedConfig α) (key : String) : Except ParamError String :=
  c.read key "a string" ParamValue.toText?

end ResolvedConfig

end SignalGraph
