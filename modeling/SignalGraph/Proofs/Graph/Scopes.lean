import SignalGraph.Proofs.Graph.Construction

namespace SignalGraph.Graph

variable {α : Type}

/-- Nodes that use no placeholders outside the integrands of their integrators, those of `within`
apart. -/
inductive Scoped (g : Graph α) : List Node → Node → Prop
  | state {within : List Node} {s : Node} : s ∈ within → Scoped g within s
  | element {within : List Node} {n : Node} {rec : NodeRecord α} {e : Element α} :
    g.record? n = some rec → rec.kind = .element e → (∀ m ∈ rec.inputs, Scoped g within m) →
      Scoped g within n
  | integrate {within : List Node} {n s : Node} {rec : NodeRecord α} :
    g.record? n = some rec → rec.kind = .integrate s none → (∀ m ∈ rec.inputs, Scoped g within m) →
      Scoped g within n
  | closed {within : List Node} {n s f : Node} {rec : NodeRecord α} :
    g.record? n = some rec → rec.kind = .integrate s (some f) →
    (∀ m ∈ rec.inputs, Scoped g within m) → Scoped g (s :: within) f → Scoped g within n

/-- The same as a check, for nodes before place `bound`. -/
def scopes (g : Graph α) : (bound : Nat) → List Node → Node → Bool
  | 0, _, _ => false
  | bound + 1, within, n =>
    within.contains n ||
      match g.record? n with
      | none => false
      | some rec =>
        match rec.kind with
        | .state => false
        | .element _ => rec.inputs.all (scopes g bound within)
        | .integrate s f =>
          rec.inputs.all (scopes g bound within) && f.all (scopes g bound (s :: within))

variable {g : Graph α} {within : List Node} {n : Node}

theorem scoped_of_scopes {bound : Nat} (h : g.scopes bound within n = true) : g.Scoped within n := by
  induction bound generalizing within n with
  | zero => cases h
  | succ bound ih =>
    rw [scopes, Bool.or_eq_true] at h
    rcases h with h | h
    · exact .state (List.contains_iff_mem.1 h)
    · split at h
      · cases h
      · rename_i rec hr
        split at h
        · cases h
        · rename_i e hk
          exact .element hr hk fun m hm => ih (List.all_eq_true.1 h m hm)
        · rename_i s f hk
          obtain ⟨hin, hf⟩ := Bool.and_eq_true_iff.1 h
          have hinputs := fun m hm => ih (List.all_eq_true.1 hin m hm)
          cases f with
          | none => exact .integrate hr hk hinputs
          | some f => exact .closed hr hk hinputs (ih hf)

theorem Scoped.scopes {bound : Nat} (h : g.Scoped within n) (hn : n.index < bound) :
    g.scopes bound within n = true := by
  induction h generalizing bound with
  | state hs =>
    obtain ⟨b, rfl⟩ := Nat.exists_eq_add_one.2 (Nat.zero_lt_of_lt hn)
    rw [Graph.scopes, List.contains_iff_mem.2 hs, Bool.true_or]
  | element hr hk _ ih =>
    obtain ⟨b, rfl⟩ := Nat.exists_eq_add_one.2 (Nat.zero_lt_of_lt hn)
    rw [Graph.scopes, Bool.or_eq_true, hr]
    simp only [hk]
    refine .inr (List.all_eq_true.2 fun m hm => ih m hm ?_)
    exact Nat.lt_of_lt_of_le (inputs_lt hr m hm) (Nat.le_of_lt_succ hn)
  | integrate hr hk _ ih =>
    obtain ⟨b, rfl⟩ := Nat.exists_eq_add_one.2 (Nat.zero_lt_of_lt hn)
    rw [Graph.scopes, Bool.or_eq_true, hr]
    simp only [hk, Option.all_none, Bool.and_true]
    refine .inr (List.all_eq_true.2 fun m hm => ih m hm ?_)
    exact Nat.lt_of_lt_of_le (inputs_lt hr m hm) (Nat.le_of_lt_succ hn)
  | @closed within n s f rec hr hk _ _ ih ihf =>
    obtain ⟨b, rfl⟩ := Nat.exists_eq_add_one.2 (Nat.zero_lt_of_lt hn)
    have hlt : ∀ m : Node, m.index < n.index → m.index < b := fun m hm =>
      Nat.lt_of_lt_of_le hm (Nat.le_of_lt_succ hn)
    rw [Graph.scopes, Bool.or_eq_true, hr]
    simp only [hk, Option.all_some, Bool.and_eq_true]
    refine .inr ⟨List.all_eq_true.2 fun m hm => ih m hm (hlt m (inputs_lt hr m hm)), ?_⟩
    exact ihf (hlt f (integrand_lt hr hk))

/-- What is scoped under no open loop is a node of the graph. -/
theorem Scoped.lt (h : g.Scoped [] n) : n.index < g.size := by
  cases h with
  | state hs => cases hs
  | element hr _ _ => exact lt_size hr
  | integrate hr _ _ => exact lt_size hr
  | closed hr _ _ _ => exact lt_size hr

theorem scoped_iff : g.Scoped within n ↔ g.scopes (n.index + 1) within n = true :=
  ⟨fun h => h.scopes (Nat.lt_succ_self _), scoped_of_scopes⟩

instance : Decidable (g.Scoped within n) := decidable_of_iff _ scoped_iff.symm

end SignalGraph.Graph
