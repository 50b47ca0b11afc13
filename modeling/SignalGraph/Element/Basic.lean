import SignalGraph.Config.Value
import SignalGraph.Graph.Error
import SignalGraph.Network.Basic

namespace SignalGraph

/-- Why a node was not realized. -/
inductive RealizeError where
  | params (e : ParamError)
  | network (e : NetworkError)
  | poisoned
  | unboundState
  | sizeMismatch (kind : String) (expected actual : Nat)
  /-- A node that the graph does not hold. -/
  | foreignNode
deriving Repr, DecidableEq

def RealizeError.message : RealizeError → String
  | params e => "Configuration error: " ++ e.message
  | network e => "Materialization error: " ++ e.message
  | poisoned => "Materialization error: Build context was poisoned by an earlier failure"
  | unboundState =>
    "Materialization error: State placeholder used outside the integrand of its integrator"
  | sizeMismatch kind expected actual =>
    s!"Materialization error: {kind} element realized an object of size {actual}, " ++
      s!"expected {expected}"
  | foreignNode => "Materialization error: Node does not belong to this graph"

/-- A parameter as an element read it. -/
inductive Reading (α : Type) where
  | number (x : α)
  | whole (i : Int)
  | flag (b : Bool)
  | word (s : String)
  | value (v : ParamValue α)

/-- What an element tells about one of its lowerings. -/
structure Report (α : Type) where
  element : String
  config : Params α
  readings : List (Reading α)
  inputs : List Handle

/-- A conversation with a target. -/
inductive Lowering (α : Type) where
  | done (h : Handle)
  | fail (e : RealizeError)
  | create (r : Request α) (next : Handle → Lowering α)
  | connect (feedback integrand : Handle) (next : Lowering α)
  | partialConnections (next : Bool → Lowering α)
  | report (r : Report α) (next : Lowering α)

/-- One object of the target and nothing else. -/
def Lowering.object {α : Type} (r : Request α) : Lowering α := .create r .done

def Lowering.ofExcept {α β : Type} (x : Except ParamError β) (next : β → Lowering α) : Lowering α :=
  match x with
  | .ok b => next b
  | .error e => .fail (.params e)

/-- A kind of nodes: how many values it puts out, and how it is lowered. -/
structure Element (α : Type) where
  name : String
  /-- The parameters it reads. -/
  configurable : List String
  /-- How many values it puts out, given the sizes of its inputs. -/
  sizeOut : List Nat → Except GraphError Nat
  lower : List Handle → ResolvedConfig α → Lowering α

end SignalGraph
