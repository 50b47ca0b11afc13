import SignalGraph.Dispatch.Registry
import SignalGraph.Proofs.Graph.Building

namespace SignalGraph

open Build

variable {α : Type} {d : Dispatcher α} {operands : List (Operand α)} {params : Params α}
  {g g' : Graph α}

/-- What a dispatched operation answers when its only handler has answered. -/
def answered (name : String) : Option (Operand α) → Build α (Operand α)
  | some x => pure x
  | none => throw (.dispatch (.allDeclined name 1))

theorem answered_some (name : String) (x : Build α (Operand α)) :
    some <$> x >>= answered name = x := by
  rw [bind_map_left]
  exact bind_pure x

namespace Registry

theorem history_registerAll (r : Registry α) (es : List (Registration α)) :
    (r.registerAll es).history = es.reverse ++ r.history := by
  induction es generalizing r with
  | nil => rfl
  | cons e es ih =>
    calc ((r.register e.kind e.name e.handler).registerAll es).history
        = es.reverse ++ (r.register e.kind e.name e.handler).history := ih _
      _ = (e :: es).reverse ++ r.history := by
        rw [List.reverse_cons, List.append_assoc]
        rfl

theorem mem_history_registerAll {es : List (Registration α)} {e : Registration α} :
    e ∈ (empty.registerAll es).history ↔ e ∈ es := by
  simp [history_registerAll, empty]

/-- A handler that declines leaves the graph and the operation to the next one. -/
theorem firstAnswer_run (h : Handler α) (hs : List (Handler α)) :
    (firstAnswer d operands params (h :: hs)).run g =
      match (h d operands params).run g with
      | .ok (some x, g') => .ok (some x, g')
      | .ok (none, _) => (firstAnswer d operands params hs).run g
      | .error e => .error e := by
  change (h d operands params).run g >>= _ = _
  cases (h d operands params).run g with
  | error e => rfl
  | ok answer =>
    obtain ⟨x, g'⟩ := answer
    cases x with
    | none => rfl
    | some x => rfl

/-- What becomes of the answer of the handlers; `e` is what is said where there is none. -/
def concluded (e : DispatchError) (answer : Option (Operand α) × Graph α) :
    Except GraphError (Operand α × Graph α) :=
  answer.1.elim (.error (.dispatch e)) fun x => .ok (x, answer.2)

variable [Scalar α] {r : Registry α} {kind : DispatchKind} {name : String}

/-- The call of an operation that is not computed at once. -/
theorem call_run (hgraph : kind = .ufunc → operands.any Operand.isGraph = true) :
    (r.call d kind name operands params).run g =
      if (r.chain kind name).isEmpty then .error (.dispatch (.noImplementation name))
      else
        (firstAnswer d operands params (r.chain kind name)).run g >>=
          concluded (.allDeclined name (r.chain kind name).length) := by
  have hnot : (decide (kind = .ufunc) && !operands.any Operand.isGraph) = false := by
    cases kind with
    | ufunc => simp [hgraph rfl]
    | function => rfl
    | method => rfl
  rw [call, hnot, if_neg Bool.false_ne_true]
  dsimp only
  split
  · rfl
  · change (firstAnswer d operands params (r.chain kind name)).run g >>= _ = _
    cases (firstAnswer d operands params (r.chain kind name)).run g with
    | error e => rfl
    | ok answer =>
      obtain ⟨x, g'⟩ := answer
      cases x with
      | none => rfl
      | some x => rfl

theorem call_single {handler : Handler α}
    (hgraph : kind = .ufunc → operands.any Operand.isGraph = true)
    (hc : r.chain kind name = [handler]) :
    r.call d kind name operands params = handler d operands params >>= answered name := by
  funext g
  change (r.call d kind name operands params).run g =
    (handler d operands params).run g >>= fun p => (answered name p.1).run p.2
  rw [call_run hgraph, hc, firstAnswer_run]
  cases (handler d operands params).run g with
  | error e => rfl
  | ok answer =>
    obtain ⟨x, g'⟩ := answer
    cases x with
    | none => rfl
    | some x => rfl

end Registry

end SignalGraph
