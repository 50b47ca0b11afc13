import SignalGraph.Graph.Overlay
import SignalGraph.Proofs.Graph.Routes

namespace SignalGraph.Graph

/-- A node that no visit puts on a level: it was visited, or the graph does not have it. -/
def Marked (seen : Array Bool) (n : Node) : Prop := seen.getD n.index true = true

section Visit

variable {seen marks : Array Bool} {n m : Node} {ns ms : List Node}

theorem marked_set : Marked (seen.setIfInBounds n.index true) m ↔ m = n ∨ Marked seen m := by
  unfold Marked
  rw [Array.getD_eq_getD_getElem?, Array.getD_eq_getD_getElem?, Array.getElem?_setIfInBounds]
  by_cases h : n.index = m.index
  · have hm : m = n := congrArg Node.mk h.symm
    subst hm
    by_cases hlt : m.index < seen.size <;> simp [hlt]
  · have hne : m ≠ n := fun hm => h (congrArg Node.index hm.symm)
    simp [h, hne]

theorem visit_marked (h : ∀ m ∈ ns, Marked seen m) : visit seen ns = ([], seen) := by
  induction ns with
  | nil => rfl
  | cons n ns ih =>
    have hn := h n List.mem_cons_self
    rw [Marked] at hn
    rw [visit, if_pos hn]
    exact ih fun m hm => h m (List.mem_cons_of_mem _ hm)

theorem visit_append : visit seen (ns ++ ms) =
    ((visit seen ns).1 ++ (visit (visit seen ns).2 ms).1, (visit (visit seen ns).2 ms).2) := by
  induction ns generalizing seen with
  | nil => rfl
  | cons n ns ih =>
    rw [List.cons_append, visit, visit]
    split
    · exact ih
    · rw [ih]
      rfl

/-- A visit marks the nodes that it comes to and no others. -/
theorem marked_visit : Marked (visit seen ns).2 m ↔ Marked seen m ∨ m ∈ ns := by
  induction ns generalizing seen with
  | nil => simp [visit]
  | cons n ns ih =>
    rw [visit, List.mem_cons]
    split
    · rename_i hn
      rw [ih]
      constructor
      · exact Or.imp_right .inr
      · rintro (h | rfl | h)
        · exact .inl h
        · exact .inl hn
        · exact .inr h
    · exact ih.trans (by rw [marked_set]; tauto)

/-- Nodes that are left out change no search, if it finds nothing at those visited before. -/
theorem visit_findSome? {β : Type} {f : Node → Option β}
    (h : ∀ m ∈ ns, Marked seen m → f m = none) : (visit seen ns).1.findSome? f = ns.findSome? f := by
  induction ns generalizing seen with
  | nil => rfl
  | cons n ns ih =>
    rw [visit, List.findSome?_cons]
    split
    · rename_i hn
      rw [h n List.mem_cons_self hn]
      exact ih fun m hm => h m (List.mem_cons_of_mem _ hm)
    · rw [List.findSome?_cons]
      cases hfn : f n with
      | some b => rfl
      | none =>
        refine ih fun m hm hmarked => ?_
        rcases marked_set.1 hmarked with rfl | hmarked
        · exact hfn
        · exact h m (List.mem_cons_of_mem _ hm) hmarked

/-- Nodes that are left out lead nowhere new, if what those visited before lead to is visited. -/
theorem visit_flatMap {f : Node → List Node}
    (h : ∀ m ∈ ns, Marked seen m → ∀ k ∈ f m, Marked marks k) :
    visit marks ((visit seen ns).1.flatMap f) = visit marks (ns.flatMap f) := by
  induction ns generalizing seen marks with
  | nil => rfl
  | cons n ns ih =>
    rw [visit, List.flatMap_cons, visit_append]
    split
    · rename_i hn
      rw [visit_marked (h n List.mem_cons_self hn)]
      exact ih fun m hm => h m (List.mem_cons_of_mem _ hm)
    · rw [List.flatMap_cons, visit_append, ih]
      intro m hm hmarked k hk
      rw [marked_visit]
      rcases marked_set.1 hmarked with rfl | hmarked
      · exact .inr hk
      · exact .inl (h m (List.mem_cons_of_mem _ hm) hmarked k hk)

end Visit

variable {α : Type} {g : Graph α} {n m : Node} {keys : List String} {key : String}
  {found : Params α} {seen : Array Bool} {level : List Node}

/-- What a node's overlay has for a key that a search is for. -/
def offered (g : Graph α) (keys : List String) (key : String) (m : Node) : Option (ParamValue α) :=
  if key ∈ keys then (g.overlayOf m).get? key else none

theorem gather_single {k : String} : (g.gather [k] found m).get? key =
    (found.get? key).or (if key = k then (g.overlayOf m).get? key else none) := by
  rw [gather, List.foldl_cons, List.foldl_nil]
  by_cases hk : key = k
  · subst hk
    cases hfound : found.get? key <;> cases hv : (g.overlayOf m).get? key <;>
      simp [KeyMap.contains, hfound]
  · rw [if_neg hk, Option.or_none]
    split
    · rfl
    · split
      · rw [KeyMap.get?_insert, if_neg hk]
      · rfl

theorem gather_get? : (g.gather keys found m).get? key =
    (found.get? key).or (g.offered keys key m) := by
  unfold offered
  induction keys generalizing found with
  | nil => simp [gather]
  | cons k keys ih =>
    have hcons : g.gather (k :: keys) found m = g.gather keys (g.gather [k] found m) m := rfl
    rw [hcons, ih, gather_single, Option.or_assoc]
    by_cases hk : key = k
    · subst hk
      cases (g.overlayOf m).get? key <;> simp
    · simp [hk]

theorem gather_level : (level.foldl (g.gather keys) found).get? key =
    (found.get? key).or (level.findSome? (g.offered keys key)) := by
  induction level generalizing found with
  | nil => simp
  | cons m level ih =>
    rw [List.foldl_cons, ih, gather_get?, List.findSome?_cons, Option.or_assoc]
    cases g.offered keys key m <;> rfl

theorem walk_nil (depth : Nat) : g.walk keys depth seen [] found = found := by
  cases depth <;> rfl

/-- An empty level ends the walk as a level does that leads nowhere. -/
theorem walk_succ (depth : Nat) : g.walk keys (depth + 1) seen level found =
    if keys.all (level.foldl (g.gather keys) found).contains then level.foldl (g.gather keys) found
    else g.walk keys depth (visit seen (level.flatMap g.inputsOf)).2
      (visit seen (level.flatMap g.inputsOf)).1 (level.foldl (g.gather keys) found) := by
  cases level with
  | nil =>
    rw [walk, List.flatMap_nil, visit, walk_nil]
    simp
  | cons m level => rfl

/-- The walk from a level that is left of `ns`. What was marked before has been searched, and leads to
nodes that are marked now. -/
theorem walk_get? (depth : Nat) {ns : List Node} (hbefore : ∀ m ∈ ns, m.index < n.index)
    (hclosed : ∀ m, Marked seen m → ∀ k ∈ g.inputsOf m, Marked (visit seen ns).2 k)
    (hsearched : ∀ m, m ≠ n → found.get? key = none → Marked seen m → g.offered keys key m = none) :
    (g.walk keys depth (visit seen ns).2 (visit seen ns).1 found).get? key = (found.get? key).or
      (((List.range depth).flatMap fun d => ns.flatMap (g.ends d)).findSome?
        (g.offered keys key)) := by
  induction depth generalizing seen ns found with
  | zero => simp [walk]
  | succ depth ih =>
    have hne : ∀ m ∈ ns, m ≠ n := by
      rintro m hm rfl
      exact Nat.lt_irrefl _ (hbefore m hm)
    have hgathered : ((visit seen ns).1.foldl (g.gather keys) found).get? key =
        (found.get? key).or (ns.findSome? (g.offered keys key)) := by
      rw [gather_level]
      cases hfound : found.get? key with
      | some v => rfl
      | none => rw [visit_findSome? fun m hm => hsearched m (hne m hm) hfound]
    have hsplit : ((List.range (depth + 1)).flatMap fun d => ns.flatMap (g.ends d)) =
        ns ++ (List.range depth).flatMap fun d => (ns.flatMap g.inputsOf).flatMap (g.ends d) := by
      rw [List.range_succ_eq_map, List.flatMap_cons, List.flatMap_map]
      congr 1
      · exact List.flatMap_singleton' ns
      · simp only [List.flatMap_assoc]
        rfl
    rw [hsplit, List.findSome?_append, ← Option.or_assoc, ← hgathered, walk_succ]
    split
    · rename_i hall
      by_cases hkey : key ∈ keys
      · obtain ⟨v, hv⟩ := Option.isSome_iff_exists.1 (List.all_eq_true.1 hall key hkey)
        rw [hv]
        rfl
      · have hnone : ∀ ns : List Node, ns.findSome? (g.offered keys key) = none := fun ns =>
          List.findSome?_eq_none_iff.2 fun m _ => if_neg hkey
        rw [hnone, Option.or_none]
    · rw [visit_flatMap fun m _ => hclosed m]
      refine ih ?_ ?_ ?_
      · intro k hk
        obtain ⟨m, hm, hk⟩ := List.mem_flatMap.1 hk
        exact Nat.lt_trans (inputsOf_lt hk).1 (hbefore m hm)
      · intro m hm k hk
        rw [marked_visit]
        rcases marked_visit.1 hm with hm | hm
        · exact .inl (hclosed m hm k hk)
        · exact .inr (List.mem_flatMap.2 ⟨m, hm, hk⟩)
      · intro m hm hfound hmarked
        rw [hgathered, Option.or_eq_none_iff] at hfound
        rcases marked_visit.1 hmarked with hmarked | hmem
        · exact hsearched m hm hfound.1 hmarked
        · exact List.findSome?_eq_none_iff.1 hfound.2 m hmem

/-- Neither the visits made once nor the end of the walk when all keys are found changes what it
finds for a key. -/
theorem nearestOverlays_get? : (g.nearestOverlays n keys).get? key =
    (g.upstream n).findSome? (g.offered keys key) := by
  unfold nearestOverlays
  split
  · rename_i hkeys
    rw [List.isEmpty_iff.1 hkeys]
    exact (List.findSome?_eq_none_iff.2 fun m _ => if_neg List.not_mem_nil).symm
  · have hstart : ∀ {m}, Marked ((Array.replicate g.size false).setIfInBounds n.index true) m →
        m ≠ n → g.record? m = none := by
      intro m hm hne
      have hout := (marked_set.1 hm).resolve_left hne
      refine Array.getElem?_eq_none (Nat.le_of_not_lt fun hlt => ?_)
      change m.index < g.size at hlt
      rw [Marked, Array.getD_eq_getD_getElem?, Array.getElem?_replicate, if_pos hlt] at hout
      cases hout
    refine (walk_get? n.index (fun m hm => (inputsOf_lt hm).1) ?_ ?_).trans ?_
    · intro m hm k hk
      rw [marked_visit]
      by_cases hne : m = n
      · exact .inr (hne ▸ hk)
      · rw [inputsOf, hstart hm hne] at hk
        cases hk
    · intro m hne _ hm
      rw [offered, overlayOf, hstart hm hne]
      exact ite_self none
    · rw [KeyMap.get?_empty, Option.none_or]
      rfl

/-- What the walk finds for a key does not depend on the other keys that it is for. -/
theorem nearestOverlays_eq (h : key ∈ keys) :
    (g.nearestOverlays n keys).get? key = g.nearestOverlay n key := by
  have hoffered : g.offered keys key = g.offered [key] key := by
    funext m
    rw [offered, offered, if_pos h, if_pos (List.mem_singleton_self key)]
  rw [nearestOverlay, nearestOverlays_get?, nearestOverlays_get?, hoffered]

end SignalGraph.Graph
