import SignalGraph.Element.Builtin

namespace SignalGraph

inductive SizeRule where
  | first
  | sum
  /-- The size that all inputs have. -/
  | equal
  | fixed (size : Nat)
  | refuse (reason : String)

inductive LoweringRule where
  | pass
  | sum
  /-- The first component of the first input. -/
  | firstComponent
  /-- The first input times a parameter. -/
  | gain (key : String)
  /-- A constant source of ones. -/
  | ones (size : Nat)
  | handle (h : Handle)
  | refuse (reason : String)

/-- How a parameter is read. -/
inductive ReadingRule where
  | scalar
  | int
  | nat
  | bool
  | text
  | value

variable {α : Type} [Scalar α]

def ReadingRule.read (r : ReadingRule) (c : ResolvedConfig α) (key : String) :
    Except ParamError (Reading α) :=
  match r with
  | scalar => .number <$> c.scalar key
  | int => .whole <$> c.int key
  | nat => (.whole <| Int.ofNat ·) <$> c.nat key
  | bool => .flag <$> c.bool key
  | text => .word <$> c.text key
  | value => .value <$> c.value key

def SizeRule.apply (r : SizeRule) (name : String) (sizes : List Nat) : Except GraphError Nat :=
  match r, sizes with
  | fixed size, _ => .ok size
  | refuse reason, _ => .error (.invalid (.custom reason))
  | _, [] => .error (.invalid (.custom (name ++ " takes inputs")))
  | first, size :: _ => .ok size
  | sum, sizes => .ok (Shape.wordTotal sizes)
  | equal, size :: rest =>
    match rest.find? (· ≠ size) with
    | some other => .error (.sizeMismatch name size other)
    | none => .ok size

def LoweringRule.apply (r : LoweringRule) (inputs : List Handle) (c : ResolvedConfig α) :
    Lowering α :=
  match r with
  | pass => Element.withInput inputs .done
  | sum => .object (.linear inputs (inputs.map fun h => .identity h.size))
  | firstComponent => Element.withInput inputs fun h => .object (.slice h [0])
  | gain key =>
    .ofExcept (c.scalar key) fun g =>
    Element.withInput inputs fun h => .object (.linear [h] [(Matrix.identity h.size).scale g])
  | ones size => .object (.source (.constant (List.replicate size Scalar.one)))
  | handle h => .done h
  | refuse reason => .fail (.network (.unsupported (.custom reason)))

/-- A kind of node that reads its parameters, reports them, and is lowered by a rule. -/
def Element.ofRules (name : String) (configurable : List String) (size : SizeRule)
    (readings : List (ReadingRule × String)) (lowering : LoweringRule) : Element α where
  name
  configurable
  sizeOut := size.apply name
  lower inputs c :=
    .ofExcept (readings.mapM fun (r, key) => r.read c key) fun readings =>
    .report ⟨name, c.values, readings, inputs⟩ (lowering.apply inputs c)

end SignalGraph
