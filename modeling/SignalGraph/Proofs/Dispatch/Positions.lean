import SignalGraph.Operation
import SignalGraph.Proofs.Arrays
import SignalGraph.Proofs.Dispatch.Cells

namespace SignalGraph

open Build

variable {α : Type} [Scalar α] {g g' : Graph α} {value : Nat → List α}

namespace Shape

theorem mapM_joinLength (s : Shape) :
    (List.zip (List.replicate s.length 1) s).mapM (fun p => joinLength p.1 p.2) = some s := by
  induction s with
  | nil => rfl
  | cons n s ih =>
    have hn : joinLength 1 n = some n := by
      unfold joinLength
      by_cases h : 1 = n
      · simp [h]
      · simp [h]
    rw [List.length_cons, List.replicate_succ, List.zip_cons_cons, List.mapM_cons, hn, ih]
    rfl

/-- A shape without axes leaves every other as it is. -/
theorem broadcast_nil (s : Shape) : broadcast [] s = .ok s := by
  have hpad : padTo s.length s = s := by simp [padTo]
  have hnil : padTo s.length [] = List.replicate s.length 1 := by simp [padTo]
  simp only [broadcast, List.length_nil, Nat.zero_max, hpad, hnil, mapM_joinLength]

theorem broadcastAll_one (s : Shape) : broadcastAll [s] = .ok s := by
  rw [broadcastAll, List.foldlM_cons, broadcast_nil]
  rfl

theorem broadcastAll_two (s t : Shape) : broadcastAll [s, t] = broadcast s t := by
  rw [broadcastAll, List.foldlM_cons, broadcast_nil]
  cases h : broadcast s t <;> simp [List.foldlM, bind, Except.bind, h, pure, Except.pure]

end Shape

namespace Build

/-- Nodes built one after the other, each with the value that is computed for it. -/
theorem mapM_steady {β : Type} {f : β → Build α Node} {v : β → α} {xs : List β} {ns : List Node}
    (hs : g.Steady value)
    (hf : ∀ x ∈ xs, ∀ (g₁ g₂ : Graph α) (value₁ : Nat → List α) (n : Node),
      g.Later value g₁ value₁ → (f x).run g₁ = .ok (n, g₂) →
        ∃ value₂, g₁.Later value₁ g₂ value₂ ∧ g₂.Carries value₂ n [v x])
    (hr : (xs.mapM f).run g = .ok (ns, g')) :
    ∃ value', g.Later value g' value' ∧
      List.Forall₂ (fun x n => g'.Carries value' n [v x]) xs ns := by
  induction xs generalizing g value ns with
  | nil =>
    obtain ⟨rfl, rfl⟩ := pure_ok.1 hr
    exact ⟨value, .refl hs, .nil⟩
  | cons x xs ih =>
    simp only [List.mapM_cons, bind_ok, pure_ok] at hr
    obtain ⟨n, g₁, hx, ms, g₂, hxs, rfl, rfl⟩ := hr
    obtain ⟨value₁, hl₁, hc⟩ := hf x List.mem_cons_self g g₁ value n (.refl hs) hx
    obtain ⟨value', hl, hall⟩ := ih hl₁.steady
      (fun x hm g₂ g₃ value₂ m hl₂ => hf x (List.mem_cons_of_mem _ hm) g₂ g₃ value₂ m (hl₁.trans hl₂))
      hxs
    exact ⟨value', hl₁.trans hl, .cons (hc.later hl) hall⟩

/-- A node for each index of a shape. -/
theorem tabulateM_steady {s : Shape} {f : List Nat → Build α Node} {v : List Nat → α} {ns : Fold}
    (hs : g.Steady value)
    (hf : ∀ i, Shape.Within i s → ∀ (g₁ g₂ : Graph α) (value₁ : Nat → List α) (n : Node),
      g.Later value g₁ value₁ → (f i).run g₁ = .ok (n, g₂) →
        ∃ value₂, g₁.Later value₁ g₂ value₂ ∧ g₂.Carries value₂ n [v i])
    (hr : (NDArray.tabulateM s f).run g = .ok (ns, g')) :
    ns.shape = s ∧ ∃ value', g.Later value g' value' ∧
      ∀ i, Shape.Within i s → g'.Carries value' (ns.entry i) [v i] := by
  have hshape : ns.shape = s := by
    obtain ⟨data, -, rfl⟩ := map_ok.1 hr
    rfl
  have hlist : ((List.range (Shape.size s)).mapM fun p => f (Shape.unravel s p)).run g =
      .ok (ns.toList, g') := by
    rw [← NDArray.toList_tabulateM]
    exact map_ok.2 ⟨ns, hr, rfl⟩
  obtain ⟨value', hl, hall⟩ := mapM_steady (v := fun p => v (Shape.unravel s p)) hs
    (fun p hp => hf _ (Shape.within_unravel (List.mem_range.1 hp))) hlist
  refine ⟨hshape, value', hl, ?_⟩
  intro i hi
  have hlt := Shape.offset_lt hi
  have hget := NDArray.toList_offset (a := ns) (hshape ▸ hi)
  rw [hshape] at hget
  have hc := forall₂_getElem? hall (List.getElem?_range hlt) hget
  rw [Shape.unravel_offset hi] at hc
  exact hc

/-- A source for each number of an array. -/
theorem stimuli_steady {a : NDArray α} {x : Operand α} (hs : g.Steady value)
    (hr : (Operation.stimuli a).run g = .ok (x, g')) :
    ∃ (ns : Fold) (value' : Nat → List α), x = .fold ns ∧ ns.shape = a.shape ∧
      g.Later value g' value' ∧
        ∀ i, Shape.Within i a.shape → g'.Carries value' (ns.entry i) [a.entry i] := by
  obtain ⟨ns, hns, rfl⟩ := map_ok.1 hr
  have hshape : ns.shape = a.shape := by
    obtain ⟨data, -, rfl⟩ := map_ok.1 hns
    rfl
  have hlist : (a.toList.mapM fun c => stimulus (.constant [c])).run g = .ok (ns.toList, g') := by
    rw [← NDArray.toList_mapM]
    exact map_ok.2 ⟨ns, hns, rfl⟩
  obtain ⟨value', hl, hall⟩ := mapM_steady (v := id) hs
    (fun c _ g₁ g₂ value₁ n hl₁ hb => stimulus_steady hl₁.steady hb) hlist
  refine ⟨ns, value', rfl, hshape, hl, ?_⟩
  intro i hi
  have hget := NDArray.toList_offset (a := ns) (hshape ▸ hi)
  rw [hshape] at hget
  exact forall₂_getElem? hall (NDArray.toList_offset hi) hget

end Build

namespace Operand

variable {operands : List (Operand α)}

omit [Scalar α] in
theorem cells_shape (x : Operand α) : x.cells.shape = x.shape := by cases x <;> rfl

theorem spreadCells_eq_ok {s : Shape} {columns : List (NDArray (Cell α))} :
    spreadCells s operands = .ok columns ↔
      List.Forall₂ (fun x c => Shape.spreads x.shape s = true ∧
        c = x.cells.gather s (Shape.restrict x.shape)) operands columns := by
  rw [spreadCells, mapM_eq_ok]
  refine iff_of_eq (congrArg (List.Forall₂ · operands columns) ?_)
  funext x c
  rw [← cells_shape x, ← NDArray.spread?_eq_some]
  cases x.cells.spread? s <;> simp

/-- What stands at an index of the stretched operands. -/
theorem spreadCells_entry {s : Shape} {columns : List (NDArray (Cell α))}
    (h : spreadCells s operands = .ok columns) {i : List Nat} (hi : Shape.Within i s) :
    columns.map (·.entry i) = operands.map fun x => x.cells.entry (Shape.restrict x.shape i) := by
  refine (forall₂_map_eq ((spreadCells_eq_ok.1 h).imp ?_)).symm
  rintro x c ⟨-, rfl⟩
  rw [NDArray.entry_gather hi]

/-- An operation position by position answers with the nodes that it builds. -/
theorem broadcastMap_ok {build : List (Cell α) → Build α Node} {x : Operand α}
    (h : (broadcastMap operands build : Build α (Operand α)).run g = .ok (x, g')) :
    ∃ (s : Shape) (columns : List (NDArray (Cell α))) (nodes : Fold),
      Shape.broadcastAll (operands.map shape) = .ok s ∧ spreadCells s operands = .ok columns ∧
        (NDArray.tabulateM s fun i => build (columns.map (·.entry i))).run g = .ok (nodes, g') ∧
          x.isGraph = true ∧ x.cells = nodes.map .node := by
  rw [broadcastMap] at h
  obtain ⟨s, g₁, hs, h⟩ := bind_ok.1 h
  obtain ⟨hshape, rfl⟩ := ofShape_ok.1 hs
  obtain ⟨columns, g₂, hc, h⟩ := bind_ok.1 h
  obtain ⟨hcolumns, rfl⟩ := ofGraph_ok.1 hc
  obtain ⟨nodes, g₃, hnodes, h⟩ := bind_ok.1 h
  refine ⟨s, columns, nodes, hshape, hcolumns, ?_⟩
  cases hsingle : nodes.toSingle? with
  | none =>
    rw [hsingle] at h
    obtain ⟨hx, rfl⟩ := pure_ok.1 h
    subst hx
    exact ⟨hnodes, rfl, rfl⟩
  | some n =>
    rw [hsingle] at h
    obtain ⟨hx, rfl⟩ := pure_ok.1 h
    subst hx
    refine ⟨hnodes, ?_⟩
    split
    · exact ⟨rfl, rfl⟩
    · rw [NDArray.toSingle?_eq_some.1 hsingle, NDArray.map_single]
      exact ⟨rfl, rfl⟩

/-- An operation position by position, where the node that it builds at an index has the value that
`v` computes for it. -/
theorem broadcastMap_steady {build : List (Cell α) → Build α Node} {x : Operand α}
    {v : List Nat → α} (hs : g.Steady value)
    (hf : ∀ (s : Shape) (i : List Nat), (∀ x ∈ operands, Shape.spreads x.shape s = true) →
      Shape.Within i s → ∀ (g₁ g₂ : Graph α) (value₁ : Nat → List α) (n : Node),
        g.Later value g₁ value₁ →
        (build (operands.map fun x => x.cells.entry (Shape.restrict x.shape i))).run g₁ =
          .ok (n, g₂) →
        ∃ value₂, g₁.Later value₁ g₂ value₂ ∧ g₂.Carries value₂ n [v i])
    (h : (broadcastMap operands build : Build α (Operand α)).run g = .ok (x, g')) :
    Shape.broadcastAll (operands.map shape) = .ok x.shape ∧
      (∀ y ∈ operands, Shape.spreads y.shape x.shape = true) ∧ x.isGraph = true ∧
        ∃ value', g.Later value g' value' ∧
          ∀ i, Shape.Within i x.shape → (x.cells.entry i).Stands g' value' (v i) := by
  obtain ⟨s, columns, nodes, hshape, hcolumns, hnodes, hgraph, hcells⟩ := broadcastMap_ok h
  have hspread : ∀ y ∈ operands, Shape.spreads y.shape s = true := by
    intro y hy
    obtain ⟨c, hc, -⟩ := forall₂_mem_left (spreadCells_eq_ok.1 hcolumns) hy
    exact hc
  obtain ⟨hns, value', hl, hall⟩ := tabulateM_steady hs (fun i hi g₁ g₂ value₁ n hl₁ hb => by
    rw [spreadCells_entry hcolumns hi] at hb
    exact hf s i hspread hi g₁ g₂ value₁ n hl₁ hb) hnodes
  have hx : x.shape = s := by rw [← cells_shape, hcells, NDArray.shape_map, hns]
  rw [hx]
  refine ⟨hshape, hspread, hgraph, value', hl, ?_⟩
  intro i hi
  rw [hcells, NDArray.entry_map (hns ▸ hi)]
  exact hall i hi

end Operand

end SignalGraph
