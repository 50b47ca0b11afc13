import SignalGraph.Proofs.Arithmetic.Blocks
import SignalGraph.Proofs.Graph.Building

namespace SignalGraph

variable {α : Type} [Scalar α]

/-- A node that puts out `out` in every step, given the values of the nodes before it. It carries no
parameters. -/
inductive NodeRecord.Steady (value : Nat → List α) (out : List α) : NodeRecord α → Prop
  | stimulus : out ≠ [] →
    Steady value out ⟨.element (.stimulus (.constant out)), [], out.length, .empty, .empty⟩
  | transform {ns : List Node} {ms : List (Matrix α)} {size : Nat} :
    ns ≠ [] → ns.length = ms.length → size ≠ 0 →
    (∀ p ∈ ns.zip ms, p.2.nrows = size ∧ p.2.ncols = (value p.1.index).length) →
    out = Matrix.weightedSum size (ns.map fun n => value n.index) ms →
    Steady value out ⟨.element (.transform ms), ns, size, .empty, .empty⟩
  | decode {n : Node} {function : VectorFunction α} {size : Nat} :
    size ≠ 0 → out.length = size → out = function (value n.index) →
    Steady value out ⟨.element (.decode function size), [n], size, .empty, .empty⟩
  | bundle {ns : List Node} {size : Nat} :
    ns ≠ [] → size ≠ 0 → size < wordCount → out.length = size →
    out = (ns.map fun n => value n.index).flatten →
    Steady value out ⟨.element .bundle, ns, size, .empty, .empty⟩

/-- Every node has a value. -/
def Graph.Steady (g : Graph α) (value : Nat → List α) : Prop :=
  ∀ (i : Nat) (r : NodeRecord α), g.records[i]? = some r → r.Steady value (value i)

/-- A graph with more nodes, in which the old ones have the values that they had. -/
structure Graph.Later (g : Graph α) (value : Nat → List α) (g' : Graph α) (value' : Nat → List α) :
    Prop where
  size : g.size ≤ g'.size
  steady : g'.Steady value'
  same : ∀ i < g.size, value' i = value i

theorem Matrix.foldl_length {n : Nat} (ps : List (List α × Matrix α))
    (h : ∀ p ∈ ps, p.2.nrows = n) {acc : List α} (ha : acc.length = n) :
    (ps.foldl (fun acc p => List.zipWith (· + ·) acc (p.2.apply p.1)) acc).length = n := by
  induction ps generalizing acc with
  | nil => exact ha
  | cons p ps ih =>
    refine ih (fun q hq => h q (List.mem_cons_of_mem _ hq)) ?_
    rw [List.length_zipWith, apply_length, ha, h p List.mem_cons_self, Nat.min_self]

namespace NodeRecord.Steady

variable {value value' : Nat → List α} {out : List α} {r : NodeRecord α}

/-- The value has the length that the node tells. -/
theorem length (h : r.Steady value out) : out.length = r.size := by
  cases h with
  | stimulus => rfl
  | @transform ns ms size hne hl hsize hall ho =>
    rw [ho]
    refine Matrix.foldl_length _ ?_ List.length_replicate
    intro p hp
    rw [List.zip_map_left] at hp
    obtain ⟨q, hq, rfl⟩ := List.mem_map.1 hp
    exact (hall q hq).1
  | decode hsize hl ho => exact hl
  | bundle hne hsize hlt hl ho => exact hl

theorem positive (h : r.Steady value out) : r.size ≠ 0 := by
  cases h with
  | stimulus hne => exact fun h0 => hne (List.length_eq_zero_iff.1 h0)
  | transform hne hl hsize hall ho => exact hsize
  | decode hsize hl ho => exact hsize
  | bundle hne hsize hlt hl ho => exact hsize

/-- The value depends on those of the inputs only. -/
theorem congr (h : r.Steady value out) (hv : ∀ n ∈ r.inputs, value' n.index = value n.index) :
    r.Steady value' out := by
  cases h with
  | stimulus hne => exact .stimulus hne
  | @transform ns ms size hne hl hsize hall ho =>
    refine .transform hne hl hsize ?_ ?_
    · intro p hp
      rw [hv p.1 (List.of_mem_zip hp).1]
      exact hall p hp
    · rw [ho]
      exact congrArg (Matrix.weightedSum size · ms) (List.map_congr_left hv).symm
  | @decode n function size hsize hl ho =>
    refine .decode hsize hl ?_
    rw [hv n (List.mem_singleton_self n)]
    exact ho
  | @bundle ns size hne hsize hlt hl ho =>
    refine .bundle hne hsize hlt hl ?_
    rw [ho]
    exact congrArg List.flatten (List.map_congr_left hv).symm

end NodeRecord.Steady

namespace Graph

variable {g g' g'' : Graph α} {value value' value'' : Nat → List α}

theorem Steady.sizeOf (hs : g.Steady value) {n : Node} (hn : n.index < g.size) :
    g.sizeOf n = (value n.index).length := by
  have hr : g.record? n = some g.records[n.index] := Array.getElem?_eq_getElem hn
  rw [Graph.sizeOf, hr, (hs _ _ hr).length]
  rfl

theorem empty_steady (value : Nat → List α) : (empty : Graph α).Steady value := by
  intro i r hr
  cases hr

theorem Later.refl (hs : g.Steady value) : g.Later value g value :=
  ⟨Nat.le_refl _, hs, fun _ _ => rfl⟩

theorem Later.trans (h : g.Later value g' value') (h' : g'.Later value' g'' value'') :
    g.Later value g'' value'' where
  size := Nat.le_trans h.size h'.size
  steady := h'.steady
  same i hi := (h'.same i (Nat.lt_of_lt_of_le hi h.size)).trans (h.same i hi)

/-- A node of the graph whose value is `out`. -/
def Carries (g : Graph α) (value : Nat → List α) (n : Node) (out : List α) : Prop :=
  n.index < g.size ∧ value n.index = out

theorem Carries.later {n : Node} {out : List α} (hc : g.Carries value n out)
    (h : g.Later value g' value') : g'.Carries value' n out :=
  ⟨Nat.lt_of_lt_of_le hc.1 h.size, (h.same _ hc.1).trans hc.2⟩

/-- A node that has a value is added. -/
theorem Steady.push (hs : g.Steady value) {r : NodeRecord α} {out : List α}
    (hr : r.Steady value out) (hin : ∀ m ∈ r.inputs, m.index < g.size)
    (hg : g'.records = g.records.push r) :
    ∃ value', g.Later value g' value' ∧ g'.Carries value' ⟨g.size⟩ out := by
  have hne : ∀ i < g.size, Function.update value g.size out i = value i := fun i hi =>
    Function.update_of_ne (Nat.ne_of_lt hi) _ _
  have hsize : g'.size = g.size + 1 := by simp [size, hg]
  refine ⟨Function.update value g.size out, ⟨?_, ?_, hne⟩, ?_, Function.update_self _ _ _⟩
  · omega
  · intro i q hq
    rw [hg, Array.getElem?_push] at hq
    split at hq
    · rename_i hi
      cases hq
      subst hi
      change r.Steady _ (Function.update value g.size out g.size)
      rw [Function.update_self]
      exact hr.congr fun m hm => hne m.index (hin m hm)
    · have hi := (Array.getElem?_eq_some_iff.1 hq)
      rw [hne i hi.1]
      refine (hs i q hq).congr fun m hm => hne m.index ?_
      obtain ⟨hlt, rfl⟩ := hi
      exact Nat.lt_trans (g.backward i hlt m (List.mem_append_left _ hm)) hlt
  · simp only [hsize]
    omega

end Graph

end SignalGraph
