import SignalGraph.Network.Basic

namespace SignalGraph

/-- Calls that may be refused and leave a state behind. -/
abbrev Effect (σ : Type) := ExceptT NetworkError (StateM σ)

/-- What a graph can be realized on. It answers requests for objects and changes its own state, also
when it refuses one. -/
structure Target (α σ : Type) where
  create : Request α → Effect σ Handle
  connect : (feedback integrand : Handle) → Effect σ Unit
  probe : Handle → Effect σ Nat
  /-- Whether slices can be asked for. -/
  partialConnections : σ → Bool

/-- A pure call that may be refused, a refusal leaving the state as it was. -/
def Effect.ofCall {σ β : Type} (call : σ → Except NetworkError (β × σ)) : Effect σ β := fun s =>
  match call s with
  | .ok (b, s') => (.ok b, s')
  | .error e => (.error e, s)

namespace Target

variable {α σ : Type}

/-- A network as the target that its calls describe. -/
def network [Scalar α] : Target α (Network α) where
  create r := .ofCall (·.create r)
  connect feedback integrand := .ofCall fun net => ((), ·) <$> net.connect feedback integrand
  probe h := .ofCall (·.probe h)
  partialConnections _ := true

/-- A target without slices that takes no more objects once it holds `limit` of them. -/
def plain (t : Target α σ) (count : σ → Nat) (limit : Option Nat) : Target α σ where
  create r := do
    match r with
    | .slice .. => throw (.unsupported .partialConnections)
    | _ =>
      if limit.any (· ≤ count (← get)) then throw (.unsupported .objectLimit)
      t.create r
  connect := t.connect
  probe := t.probe
  partialConnections _ := false

end Target

end SignalGraph
