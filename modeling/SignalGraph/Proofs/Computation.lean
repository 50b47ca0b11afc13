import Mathlib.Data.List.Forall2

namespace SignalGraph

variable {β γ ε : Type}

@[simp] theorem bind_eq_ok {x : Except ε β} {f : β → Except ε γ} {c : γ} :
    (x >>= f) = .ok c ↔ ∃ b, x = .ok b ∧ f b = .ok c := by
  cases x <;> simp [bind, Except.bind]

@[simp] theorem pure_eq_ok {a b : β} : (pure a : Except ε β) = .ok b ↔ a = b := by
  simp [pure, Except.pure]

@[simp] theorem throw_ne_ok {e : ε} {b : β} : (throw e : Except ε β) ≠ .ok b := by
  simp [throw, throwThe, MonadExceptOf.throw]

@[simp] theorem map_eq_ok {x : Except ε β} {f : β → γ} {c : γ} :
    (f <$> x) = .ok c ↔ ∃ b, x = .ok b ∧ f b = c := by
  cases x <;> simp [Functor.map, Except.map]

/-- A computation behind a guard succeeds when the guard lets it through. -/
@[simp] theorem guard_eq_ok {p : Prop} [Decidable p] {e : ε} {f : PUnit → Except ε β} {b : β} :
    (if p then throw e >>= f else f ⟨⟩) = .ok b ↔ ¬p ∧ f ⟨⟩ = .ok b := by
  split <;> simp_all

@[simp] theorem guard_map_eq_ok {p : Prop} [Decidable p] {e : ε} {f : β → γ} {x : Except ε γ}
    {c : γ} : (if p then f <$> (throw e : Except ε β) else x) = .ok c ↔ ¬p ∧ x = .ok c := by
  split <;> simp_all

/-- Computations that both succeed, with related values, or both fail, with the same error. -/
inductive Together (R : β → γ → Prop) : Except ε β → Except ε γ → Prop
  | ok {b : β} {c : γ} : R b c → Together R (.ok b) (.ok c)
  | error (e : ε) : Together R (.error e) (.error e)

theorem Together.bind {δ ζ : Type} {R : β → γ → Prop} {S : δ → ζ → Prop} {x : Except ε β}
    {y : Except ε γ} {f : β → Except ε δ} {g : γ → Except ε ζ} (h : Together R x y)
    (hf : ∀ b c, R b c → Together S (f b) (g c)) : Together S (x >>= f) (y >>= g) := by
  cases h with
  | ok hr => exact hf _ _ hr
  | error e => exact .error e

theorem mapM_eq_ok {f : β → Except ε γ} {xs : List β} {ys : List γ} :
    xs.mapM f = .ok ys ↔ List.Forall₂ (fun x y => f x = .ok y) xs ys := by
  induction xs generalizing ys with
  | nil => cases ys <;> simp [pure, Except.pure]
  | cons x xs ih =>
    simp only [List.mapM_cons, List.forall₂_cons_left_iff]
    cases hx : f x with
    | error e => simp [bind, Except.bind]
    | ok y =>
      cases hxs : xs.mapM f with
      | error e =>
        simp only [bind, Except.bind, reduceCtorEq, Except.ok.injEq, false_iff]
        rintro ⟨_, zs, _, h, _⟩
        rw [ih.2 h] at hxs
        cases hxs
      | ok zs =>
        simp only [bind, Except.bind, pure, Except.pure, Except.ok.injEq]
        constructor
        · rintro rfl
          exact ⟨y, zs, rfl, ih.1 hxs, rfl⟩
        · rintro ⟨_, us, rfl, h, rfl⟩
          rw [ih.2 h] at hxs
          rw [Except.ok.inj hxs]

theorem mapM_congr_mem {f g : β → Except ε γ} {xs : List β} (h : ∀ x ∈ xs, f x = g x) :
    xs.mapM f = xs.mapM g := by
  induction xs with
  | nil => rfl
  | cons x xs ih =>
    rw [List.mapM_cons, List.mapM_cons, h x List.mem_cons_self,
      ih fun y hy => h y (List.mem_cons_of_mem _ hy)]

/-- Computations that all succeed, each with the answer that `g` gives. -/
theorem mapM_eq_ok_map {f : β → Except ε γ} {g : β → γ} {xs : List β}
    (h : ∀ x ∈ xs, f x = .ok (g x)) : xs.mapM f = .ok (xs.map g) := by
  rw [mapM_eq_ok, List.forall₂_map_right_iff, List.forall₂_same]
  exact h

theorem forall₂_imp_mem {R S : β → γ → Prop} {xs : List β} {ys : List γ} (h : List.Forall₂ R xs ys)
    (himp : ∀ x ∈ xs, ∀ y, R x y → S x y) : List.Forall₂ S xs ys := by
  induction h with
  | nil => exact .nil
  | cons hxy _ ih =>
    exact .cons (himp _ List.mem_cons_self _ hxy) (ih fun x hx => himp x (List.mem_cons_of_mem _ hx))

theorem forall₂_map_eq {δ : Type} {f : β → δ} {g : γ → δ} {xs : List β} {ys : List γ}
    (h : List.Forall₂ (fun x y => f x = g y) xs ys) : xs.map f = ys.map g := by
  induction h with
  | nil => rfl
  | cons hxy _ ih => rw [List.map_cons, List.map_cons, hxy, ih]

theorem forall₂_mem_left {R : β → γ → Prop} {xs : List β} {ys : List γ}
    (h : List.Forall₂ R xs ys) {x : β} (hx : x ∈ xs) : ∃ y, R x y := by
  induction h with
  | nil => cases hx
  | cons hxy _ ih =>
    rcases List.mem_cons.1 hx with rfl | hx
    · exact ⟨_, hxy⟩
    · exact ih hx

theorem forall₂_mem_right {R : β → γ → Prop} {xs : List β} {ys : List γ}
    (h : List.Forall₂ R xs ys) {y : γ} (hy : y ∈ ys) : ∃ x ∈ xs, R x y := by
  induction h with
  | nil => cases hy
  | cons hxy _ ih =>
    rcases List.mem_cons.1 hy with rfl | hy
    · exact ⟨_, List.mem_cons_self, hxy⟩
    · obtain ⟨x, hx, hr⟩ := ih hy
      exact ⟨x, List.mem_cons_of_mem _ hx, hr⟩

theorem forall₂_getElem? {R : β → γ → Prop} {xs : List β} {ys : List γ} (h : List.Forall₂ R xs ys)
    {k : Nat} {x : β} {y : γ} (hx : xs[k]? = some x) (hy : ys[k]? = some y) : R x y := by
  induction h generalizing k with
  | nil => cases hx
  | cons hxy _ ih =>
    cases k with
    | zero =>
      cases hx
      cases hy
      exact hxy
    | succ k => exact ih hx hy

/-- What an element is related to stands at the same place. -/
theorem forall₂_partner {R : β → γ → Prop} {xs : List β} {ys : List γ} (h : List.Forall₂ R xs ys)
    {k : Nat} {x : β} (hx : xs[k]? = some x) : ∃ y, ys[k]? = some y ∧ R x y := by
  have hlt : k < ys.length := h.length_eq ▸ (List.getElem?_eq_some_iff.1 hx).1
  have hy := List.getElem?_eq_getElem hlt
  exact ⟨ys[k], hy, forall₂_getElem? h hx hy⟩

theorem forall₂_set {R : β → γ → Prop} {xs : List β} {ys : List γ} (h : List.Forall₂ R xs ys)
    (k : Nat) {x : β} {y : γ} (hxy : R x y) : List.Forall₂ R (xs.set k x) (ys.set k y) := by
  induction h generalizing k with
  | nil => exact .nil
  | cons hr hrest ih =>
    cases k with
    | zero => exact .cons hxy hrest
    | succ k => exact .cons hr (ih k)

theorem forall₂_zip {δ : Type} {R : β → γ → Prop} {xs : List β} {ys : List γ} {zs : List δ}
    (h : List.Forall₂ R xs ys) {p : γ × δ} (hp : p ∈ ys.zip zs) :
    ∃ x, R x p.1 ∧ (x, p.2) ∈ xs.zip zs := by
  induction h generalizing zs with
  | nil => cases hp
  | cons hxy _ ih =>
    cases zs with
    | nil => cases hp
    | cons z zs =>
      rcases List.mem_cons.1 hp with rfl | hp
      · exact ⟨_, hxy, List.mem_cons_self⟩
      · obtain ⟨x, hx, hm⟩ := ih hp
        exact ⟨x, hx, List.mem_cons_of_mem _ hm⟩

theorem forall₂_between {δ : Type} {R : β → γ → Prop} {S : γ → δ → Prop} {xs : List β}
    {zs : List δ} (h : List.Forall₂ (fun x z => ∃ y, R x y ∧ S y z) xs zs) :
    ∃ ys, List.Forall₂ R xs ys ∧ List.Forall₂ S ys zs := by
  induction h with
  | nil => exact ⟨[], .nil, .nil⟩
  | cons hxz _ ih =>
    obtain ⟨y, hxy, hyz⟩ := hxz
    obtain ⟨ys, hxs, hzs⟩ := ih
    exact ⟨y :: ys, .cons hxy hxs, .cons hyz hzs⟩

theorem forall₂_comp {δ : Type} {R : β → γ → Prop} {S : γ → δ → Prop} {xs : List β}
    {ys : List γ} {zs : List δ} (h : List.Forall₂ R xs ys) (h' : List.Forall₂ S ys zs) :
    List.Forall₂ (fun x z => ∃ y, R x y ∧ S y z) xs zs := by
  induction h generalizing zs with
  | nil =>
    cases h'
    exact .nil
  | cons hxy _ ih =>
    cases h' with
    | cons hyz hrest => exact .cons ⟨_, hxy, hyz⟩ (ih hrest)

end SignalGraph
