import Mathlib.Data.List.Shortlex
import SignalGraph.Proofs.Graph.Building

namespace SignalGraph

/-- What a search along a list finds first. -/
theorem findSome?_eq_some_getElem? {β γ : Type} {f : β → Option γ} {xs : List β} {c : γ} :
    xs.findSome? f = some c ↔ ∃ (i : Nat) (b : β), xs[i]? = some b ∧ f b = some c ∧
      ∀ (j : Nat) (b' : β), j < i → xs[j]? = some b' → f b' = none := by
  rw [List.findSome?_eq_some_iff]
  constructor
  · rintro ⟨before, b, after, rfl, hb, hnone⟩
    refine ⟨before.length, b, by simp, hb, fun j b' hj hb' => hnone b' ?_⟩
    rw [List.getElem?_append_left hj] at hb'
    exact List.mem_of_getElem? hb'
  · rintro ⟨i, b, hi, hb, hnone⟩
    obtain ⟨hlt, rfl⟩ := List.getElem?_eq_some_iff.1 hi
    refine ⟨xs.take i, xs[i], xs.drop (i + 1), ?_, hb, fun b' hb' => ?_⟩
    · rw [List.getElem_cons_drop, List.take_append_drop]
    · obtain ⟨j, hj⟩ := List.mem_iff_getElem?.1 hb'
      rw [List.getElem?_take] at hj
      split at hj
      · rename_i hji
        exact hnone j b' hji hj
      · cases hj

theorem findSome?_flatMap {β γ δ : Type} (f : γ → Option δ) (h : β → List γ) (xs : List β) :
    (xs.flatMap h).findSome? f = xs.findSome? fun x => (h x).findSome? f := by
  induction xs with
  | nil => rfl
  | cons x xs ih =>
    rw [List.flatMap_cons, List.findSome?_append, ih, List.findSome?_cons]
    cases (h x).findSome? f <;> rfl

namespace Graph

variable {α : Type} (g : Graph α)

/-- The node that a route from a node leads to. -/
def follow : Node → List Nat → Option Node
  | n, [] => some n
  | n, i :: is => (g.inputsOf n)[i]?.bind (follow · is)

/-- The ends of the routes with `d` steps, in the order of their positions. -/
def ends : Nat → Node → List Node
  | 0, n => [n]
  | d + 1, n => (g.inputsOf n).flatMap (ends d)

/-- The ends of all routes that lead away from a node. None has more steps than the place of the node
tells. -/
def upstream (n : Node) : List Node := (List.range n.index).flatMap fun d => g.ends (d + 1) n

variable {g} {n m : Node} {is : List Nat}

theorem inputsOf_lt (h : m ∈ g.inputsOf n) : m.index < n.index ∧ m.index < g.size := by
  cases hr : g.record? n with
  | none =>
    rw [inputsOf, hr] at h
    cases h
  | some rec =>
    rw [inputsOf, hr] at h
    have hlt := inputs_lt hr m h
    exact ⟨hlt, Nat.lt_trans hlt (lt_size hr)⟩

theorem follow_cons {i : Nat} :
    g.follow n (i :: is) = some m ↔ ∃ k, (g.inputsOf n)[i]? = some k ∧ g.follow k is = some m := by
  rw [follow, Option.bind_eq_some_iff]

/-- Every step of a route leads to a smaller place. -/
theorem follow_index (h : g.follow n is = some m) : m.index + is.length ≤ n.index := by
  induction is generalizing n with
  | nil =>
    cases h
    exact Nat.le_refl _
  | cons i is ih =>
    obtain ⟨k, hk, h⟩ := follow_cons.1 h
    have hlt := (inputsOf_lt (List.mem_of_getElem? hk)).1
    have hrest := ih h
    rw [List.length_cons]
    omega

theorem follow_self (h : g.follow n is = some n) : is = [] := by
  have hindex := follow_index h
  exact List.eq_nil_of_length_eq_zero (by omega)

theorem follow_ne (h : g.follow n is = some m) (hne : m ≠ n) : is ≠ [] := by
  rintro rfl
  cases h
  exact hne rfl

theorem mem_ends {d : Nat} : m ∈ g.ends d n ↔ ∃ is, is.length = d ∧ g.follow n is = some m := by
  induction d generalizing n with
  | zero =>
    rw [ends, List.mem_singleton]
    constructor
    · rintro rfl
      exact ⟨[], rfl, rfl⟩
    · rintro ⟨is, hl, h⟩
      rw [List.eq_nil_of_length_eq_zero hl] at h
      cases h
      rfl
  | succ d ih =>
    simp only [ends, List.mem_flatMap, ih]
    constructor
    · rintro ⟨k, hk, is, hl, h⟩
      obtain ⟨i, hi⟩ := List.mem_iff_getElem?.1 hk
      exact ⟨i :: is, congrArg (· + 1) hl, follow_cons.2 ⟨k, hi, h⟩⟩
    · rintro ⟨is, hl, h⟩
      obtain ⟨i, is, rfl⟩ := List.exists_of_length_succ is hl
      obtain ⟨k, hk, h⟩ := follow_cons.1 h
      exact ⟨k, List.mem_of_getElem? hk, is, Nat.succ.inj hl, h⟩

variable {β : Type} {f : Node → Option β} {v : β}

theorem ends_findSome?_none {d : Nat} :
    (g.ends d n).findSome? f = none ↔
      ∀ is m, is.length = d → g.follow n is = some m → f m = none := by
  rw [List.findSome?_eq_none_iff]
  constructor
  · intro h is m hl hm
    exact h m (mem_ends.2 ⟨is, hl, hm⟩)
  · intro h m hm
    obtain ⟨is, hl, hm⟩ := mem_ends.1 hm
    exact h is m hl hm

/-- Among routes of one length the order is the lexicographic one. -/
theorem ends_findSome? {d : Nat} :
    (g.ends d n).findSome? f = some v ↔
      ∃ is m, is.length = d ∧ g.follow n is = some m ∧ f m = some v ∧
        ∀ js k, js.length = d → g.follow n js = some k → js.Lex (· < ·) is → f k = none := by
  induction d generalizing n with
  | zero =>
    rw [ends, List.findSome?_singleton]
    constructor
    · intro h
      refine ⟨[], n, rfl, rfl, h, fun js k _ _ hlex => ?_⟩
      cases hlex
    · rintro ⟨is, m, hl, hm, hv, -⟩
      rw [List.eq_nil_of_length_eq_zero hl] at hm
      cases hm
      exact hv
  | succ d ih =>
    rw [ends, findSome?_flatMap, findSome?_eq_some_getElem?]
    constructor
    · rintro ⟨i, a, ha, hv, hbefore⟩
      obtain ⟨is, m, hl, hm, hv, hleast⟩ := ih.1 hv
      refine ⟨i :: is, m, congrArg (· + 1) hl, follow_cons.2 ⟨a, ha, hm⟩, hv, ?_⟩
      intro js k hjs hk hlex
      obtain ⟨j, js, rfl⟩ := List.exists_of_length_succ js hjs
      obtain ⟨b, hb, hk⟩ := follow_cons.1 hk
      rcases List.cons_lex_cons_iff.1 hlex with hji | ⟨rfl, hrest⟩
      · exact ends_findSome?_none.1 (hbefore j b hji hb) js k (Nat.succ.inj hjs) hk
      · cases ha.symm.trans hb
        exact hleast js k (Nat.succ.inj hjs) hk hrest
    · rintro ⟨is, m, hl, hm, hv, hleast⟩
      obtain ⟨i, is, rfl⟩ := List.exists_of_length_succ is hl
      obtain ⟨a, ha, hm⟩ := follow_cons.1 hm
      refine ⟨i, a, ha, ih.2 ⟨is, m, Nat.succ.inj hl, hm, hv, ?_⟩, ?_⟩
      · intro js k hjs hk hlex
        exact hleast (i :: js) k (congrArg (· + 1) hjs) (follow_cons.2 ⟨a, ha, hk⟩) (.cons hlex)
      · intro j b hji hb
        refine ends_findSome?_none.2 fun js k hjs hk => ?_
        exact hleast (j :: js) k (congrArg (· + 1) hjs) (follow_cons.2 ⟨b, hb, hk⟩) (.rel hji)

theorem mem_upstream : m ∈ g.upstream n ↔ ∃ is, is ≠ [] ∧ g.follow n is = some m := by
  simp only [upstream, List.mem_flatMap, List.mem_range, mem_ends]
  constructor
  · rintro ⟨d, -, is, hl, hm⟩
    exact ⟨is, List.ne_nil_of_length_eq_add_one hl, hm⟩
  · rintro ⟨is, hne, hm⟩
    have hindex := follow_index hm
    have hpos := List.length_pos_iff.2 hne
    exact ⟨is.length - 1, by omega, is, by omega, hm⟩

/-- The search through all routes comes to the least of those that lead to something. -/
theorem upstream_findSome? :
    (g.upstream n).findSome? f = some v ↔
      ∃ is m, is ≠ [] ∧ g.follow n is = some m ∧ f m = some v ∧
        ∀ js k, js ≠ [] → g.follow n js = some k → js.Shortlex (· < ·) is → f k = none := by
  have hrange : ∀ {i d : Nat}, (List.range n.index)[i]? = some d ↔ i < n.index ∧ i = d := by
    intro i d
    simp [List.getElem?_eq_some_iff]
  rw [upstream, findSome?_flatMap, findSome?_eq_some_getElem?]
  constructor
  · rintro ⟨i, d, hd, hv, hbefore⟩
    obtain ⟨hi, rfl⟩ := hrange.1 hd
    obtain ⟨is, m, hl, hm, hv, hleast⟩ := ends_findSome?.1 hv
    refine ⟨is, m, List.ne_nil_of_length_eq_add_one hl, hm, hv, ?_⟩
    intro js k hne hk hless
    rcases List.shortlex_def.1 hless with hshort | ⟨hlen, hlex⟩
    · have hpos := List.length_pos_iff.2 hne
      have hnone := hbefore (js.length - 1) _ (by omega) (hrange.2 ⟨by omega, rfl⟩)
      exact ends_findSome?_none.1 hnone js k (by omega) hk
    · exact hleast js k (hlen.trans hl) hk hlex
  · rintro ⟨is, m, hne, hm, hv, hleast⟩
    have hpos := List.length_pos_iff.2 hne
    have hindex := follow_index hm
    refine ⟨is.length - 1, _, hrange.2 ⟨by omega, rfl⟩, ends_findSome?.2 ?_, ?_⟩
    · refine ⟨is, m, by omega, hm, hv, fun js k hjs hk hlex => ?_⟩
      have hlen : js.length = is.length := by omega
      exact hleast js k (List.length_pos_iff.1 (by omega)) hk (.of_lex hlen hlex)
    · intro j d hj hd
      obtain ⟨-, rfl⟩ := hrange.1 hd
      refine ends_findSome?_none.2 fun js k hjs hk => ?_
      exact hleast js k (List.length_pos_iff.1 (by omega)) hk (.of_length_lt (by omega))

end Graph

end SignalGraph
