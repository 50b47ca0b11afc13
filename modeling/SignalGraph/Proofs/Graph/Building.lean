import SignalGraph.Graph.Construct
import SignalGraph.Proofs.Computation

namespace SignalGraph

namespace Graph

variable {α : Type} {g : Graph α}

theorem lt_size {n : Node} {rec : NodeRecord α} (hr : g.record? n = some rec) : n.index < g.size :=
  (Array.getElem?_eq_some_iff.1 hr).1

theorem record?_of_lt {n : Node} (hn : n.index < g.size) : ∃ rec, g.record? n = some rec :=
  ⟨_, Array.getElem?_eq_getElem hn⟩

/-- The nodes that a record leads to lie before it. -/
theorem edge_lt {n m : Node} {rec : NodeRecord α} (hr : g.record? n = some rec)
    (hm : m ∈ rec.edges) : m.index < n.index := by
  obtain ⟨hi, rfl⟩ := Array.getElem?_eq_some_iff.1 hr
  exact g.backward n.index hi m hm

theorem inputs_lt {n : Node} {rec : NodeRecord α} (hr : g.record? n = some rec) :
    ∀ m ∈ rec.inputs, m.index < n.index :=
  fun _ hm => edge_lt hr (List.mem_append_left _ hm)

theorem integrand_lt {n s f : Node} {rec : NodeRecord α} (hr : g.record? n = some rec)
    (hk : rec.kind = .integrate s (some f)) : f.index < n.index := by
  refine edge_lt hr (List.mem_append_right _ ?_)
  simp [hk, NodeKind.nodes]

theorem placeholder_lt {n s : Node} {f : Option Node} {rec : NodeRecord α}
    (hr : g.record? n = some rec) (hk : rec.kind = .integrate s f) : s.index < n.index := by
  refine edge_lt hr (List.mem_append_right _ ?_)
  simp [hk, NodeKind.nodes]

theorem integrandOf_eq_some {n f : Node} : g.integrandOf n = some f ↔
    ∃ rec s, g.record? n = some rec ∧ rec.kind = .integrate s (some f) := by
  unfold integrandOf
  constructor
  · intro h
    split at h
    · rename_i hr
      subst h
      exact ⟨_, _, hr, rfl⟩
    · cases h
  · rintro ⟨⟨kind, inputs, size, overlay, explicit⟩, s, hr, rfl⟩
    rw [hr]

theorem sizeOf_record {n : Node} {rec : NodeRecord α} (hr : g.record? n = some rec) :
    g.sizeOf n = rec.size := by
  rw [sizeOf, hr]
  rfl

end Graph

namespace Build

variable {α β : Type}

theorem bind_ok {x : Build α β} {γ : Type} {f : β → Build α γ} {g g'' : Graph α} {c : γ} :
    (x >>= f).run g = .ok (c, g'') ↔
      ∃ b g', x.run g = .ok (b, g') ∧ (f b).run g' = .ok (c, g'') := by
  simp only [StateT.run_bind, bind_eq_ok, Prod.exists]

theorem pure_ok {b b' : β} {g g' : Graph α} :
    (pure b : Build α β).run g = .ok (b', g') ↔ b = b' ∧ g = g' := by
  simp [StateT.run_pure]

theorem map_ok {x : Build α β} {γ : Type} {f : β → γ} {g g' : Graph α} {c : γ} :
    (f <$> x).run g = .ok (c, g') ↔ ∃ b, x.run g = .ok (b, g') ∧ f b = c := by
  rw [StateT.run_map]
  simp

theorem throw_ok {e : GraphError} {b : β} {g g' : Graph α} :
    (throw e : Build α β).run g ≠ .ok (b, g') := by
  simp [throw, throwThe, MonadExceptOf.throw, StateT.lift, StateT.run, bind, Except.bind]

theorem ofGraph_ok {x : Except GraphError β} {b : β} {g g' : Graph α} :
    (ofGraph x : Build α β).run g = .ok (b, g') ↔ x = .ok b ∧ g = g' := by
  cases x with
  | error e => simp [ofGraph]
  | ok b' => simp [ofGraph, StateT.run_pure]

theorem ofShape_ok {x : Except ShapeError β} {b : β} {g g' : Graph α} :
    (ofShape x : Build α β).run g = .ok (b, g') ↔ x = .ok b ∧ g = g' := by
  cases x with
  | error e => simp [ofShape]
  | ok b' => simp [ofShape, StateT.run_pure]

theorem sizeOf_ok {n : Node} {k : Nat} {g g' : Graph α} :
    (sizeOf n : Build α Nat).run g = .ok (k, g') ↔ g.sizeOf n = k ∧ g = g' := by
  simp [sizeOf]

theorem sizeOf_bind (n : Node) (f : Nat → Build α β) (g : Graph α) :
    (sizeOf n >>= f).run g = (f (g.sizeOf n)).run g :=
  rfl

theorem sizes_ok {ns : List Node} {ks : List Nat} {g g' : Graph α} :
    (ns.mapM (sizeOf (α := α))).run g = .ok (ks, g') ↔ ns.map g.sizeOf = ks ∧ g = g' := by
  induction ns generalizing ks g g' with
  | nil => simp
  | cons n ns ih =>
    simp only [List.mapM_cons, bind_ok, pure_ok, sizeOf_ok, ih, List.map_cons]
    constructor
    · rintro ⟨_, _, ⟨rfl, rfl⟩, _, _, ⟨rfl, rfl⟩, rfl, rfl⟩
      exact ⟨rfl, rfl⟩
    · rintro ⟨rfl, rfl⟩
      exact ⟨_, _, ⟨rfl, rfl⟩, _, _, ⟨rfl, rfl⟩, rfl, rfl⟩

/-- A node that is added lies behind all others and leads to nodes that are there. -/
theorem add_ok {r : NodeRecord α} {n : Node} {g g' : Graph α} :
    (add r).run g = .ok (n, g') ↔
      (∀ m ∈ r.edges, m.index < g.size) ∧ n = ⟨g.size⟩ ∧ g'.records = g.records.push r := by
  simp only [add, bind_ok, StateT.run_get]
  constructor
  · rintro ⟨_, _, hg, h⟩
    cases hg
    split at h
    · rename_i hr
      obtain ⟨_, _, hs, hp⟩ := bind_ok.1 h
      cases hs
      obtain ⟨rfl, rfl⟩ := pure_ok.1 hp
      exact ⟨hr, rfl, rfl⟩
    · exact absurd h throw_ok
  · rintro ⟨hr, rfl, hg⟩
    refine ⟨g, g, rfl, ?_⟩
    rw [dif_pos hr]
    have : g' = g.push r hr := by
      cases g'
      cases hg
      rfl
    rw [this]
    rfl

theorem element_ok {e : Element α} {inputs : List Node} {explicit : Params α} {n : Node}
    {g g' : Graph α} :
    (element e inputs explicit).run g = .ok (n, g') ↔
      ∃ size, e.sizeOut (inputs.map g.sizeOf) = .ok size ∧ size ≠ 0 ∧
        (∀ m ∈ inputs, m.index < g.size) ∧ n = ⟨g.size⟩ ∧
        g'.records = g.records.push ⟨.element e, inputs, size, .empty, explicit⟩ := by
  simp only [element, bind_ok, sizes_ok, ofGraph_ok]
  constructor
  · rintro ⟨_, _, ⟨rfl, rfl⟩, size, _, ⟨hsize, rfl⟩, h⟩
    split at h
    · obtain ⟨_, _, hx, -⟩ := bind_ok.1 h
      exact absurd hx throw_ok
    · rename_i hne
      obtain ⟨hin, rfl, hg⟩ := add_ok.1 h
      simp only [NodeRecord.edges, NodeKind.nodes, List.append_nil] at hin
      exact ⟨size, hsize, hne, hin, rfl, hg⟩
  · rintro ⟨size, hsize, hne, hin, rfl, hg⟩
    refine ⟨_, _, ⟨rfl, rfl⟩, size, g, ⟨hsize, rfl⟩, ?_⟩
    rw [if_neg hne]
    refine add_ok.2 ⟨?_, rfl, hg⟩
    simpa [NodeRecord.edges, NodeKind.nodes] using hin

/-- An element without output is refused. -/
theorem element_empty {e : Element α} {inputs : List Node} {explicit : Params α} {g : Graph α}
    (h : e.sizeOut (inputs.map g.sizeOf) = .ok 0) :
    (element e inputs explicit).run g = .error (.shape (.invalid (.emptyOutput e.name))) := by
  rw [element, StateT.run_bind, sizes_ok.2 ⟨rfl, rfl⟩]
  simp only [bind, Except.bind, h]
  rfl

end Build

end SignalGraph
