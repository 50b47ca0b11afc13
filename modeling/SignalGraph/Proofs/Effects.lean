import SignalGraph.Proofs.Computation
import SignalGraph.Realize

namespace SignalGraph

variable {σ ε β γ : Type}

/-- Computations on a state that may fail. -/
abbrev Stateful (ε σ : Type) := ExceptT ε (StateM σ)

namespace Stateful

theorem bind_run (x : Stateful ε σ β) (f : β → Stateful ε σ γ) (s : σ) :
    (x >>= f).run s =
      match x.run s with
      | (.ok b, s') => (f b).run s'
      | (.error e, s') => (.error e, s') := by
  simp only [ExceptT.run, bind, ExceptT.bind, ExceptT.mk, StateT.bind]
  rcases x s with ⟨_ | _, _⟩ <;> rfl

variable {x : Stateful ε σ β} {f : β → Stateful ε σ γ} {s s' s'' : σ} {b : β} {c : γ}

@[simp] theorem pure_ok {b b' : β} :
    (pure b : Stateful ε σ β).run s = (.ok b', s') ↔ b = b' ∧ s = s' := by
  constructor
  · intro h
    cases h
    exact ⟨rfl, rfl⟩
  · rintro ⟨rfl, rfl⟩
    rfl

@[simp] theorem throw_ok {e : ε} :
    (throw e : Stateful ε σ β).run s ≠ (.ok b, s') := by
  intro h
  cases h

@[simp] theorem bind_ok :
    (x >>= f).run s = (.ok c, s'') ↔
      ∃ b s', x.run s = (.ok b, s') ∧ (f b).run s' = (.ok c, s'') := by
  rw [bind_run]
  constructor
  · intro h
    split at h
    · rename_i b s' hx
      exact ⟨b, s', hx, h⟩
    · cases h
  · rintro ⟨b, s', hx, hf⟩
    rw [hx]
    exact hf

theorem bind_of_ok (h : x.run s = (.ok b, s')) : (x >>= f).run s = (f b).run s' := by
  rw [bind_run, h]

theorem bind_of_error {e : ε} (h : x.run s = (.error e, s')) :
    (x >>= f).run s = (.error e, s') := by
  rw [bind_run, h]

theorem get_bind {f : σ → Stateful ε σ β} : (get >>= f).run s = (f s).run s := rfl

theorem map_ok {g : β → γ} :
    (g <$> x).run s = (.ok c, s') ↔ ∃ b, x.run s = (.ok b, s') ∧ g b = c := by
  rw [map_eq_pure_bind, bind_ok]
  simp only [pure_ok]
  constructor
  · rintro ⟨b, _, hb, hc, rfl⟩
    exact ⟨b, hb, hc⟩
  · rintro ⟨b, hb, hc⟩
    exact ⟨b, s', hb, hc, rfl⟩

theorem map_error {g : β → γ} {e : ε} :
    (g <$> x).run s = (.error e, s') ↔ x.run s = (.error e, s') := by
  rw [map_eq_pure_bind]
  constructor
  · intro h
    rcases hx : x.run s with ⟨e' | b, s₁⟩
    · rw [bind_of_error hx] at h
      cases h
      rfl
    · rw [bind_of_ok hx] at h
      cases h
  · exact bind_of_error

@[simp] theorem get_ok {s₀ : σ} :
    (get : Stateful ε σ σ).run s = (.ok s₀, s') ↔ s = s₀ ∧ s = s' := by
  constructor
  · intro h
    cases h
    exact ⟨rfl, rfl⟩
  · rintro ⟨rfl, rfl⟩
    rfl

@[simp] theorem modify_ok {f : σ → σ} {u : PUnit} :
    (modify f : Stateful ε σ PUnit).run s = (.ok u, s') ↔ f s = s' := by
  constructor
  · intro h
    cases h
    rfl
  · rintro rfl
    rfl

theorem tryCatch_run (x : Stateful ε σ β) (f : ε → Stateful ε σ β) (s : σ) :
    (tryCatch x f).run s =
      match x.run s with
      | (.ok b, s') => (.ok b, s')
      | (.error e, s') => (f e).run s' := by
  simp only [tryCatch, tryCatchThe, MonadExceptOf.tryCatch, ExceptT.tryCatch, ExceptT.run,
    ExceptT.mk, bind, StateT.bind]
  rcases x s with ⟨_ | _, _⟩ <;> rfl

theorem mapM_singleton {f : β → Stateful ε σ γ} :
    ([b].mapM f).run s = (.ok [c], s') ↔ (f b).run s = (.ok c, s') := by
  simp only [List.mapM_cons, List.mapM_nil, bind_ok, pure_ok]
  constructor
  · rintro ⟨_, _, hf, _, _, ⟨rfl, rfl⟩, hc, rfl⟩
    cases hc
    exact hf
  · intro hf
    exact ⟨c, s', hf, [], s', ⟨rfl, rfl⟩, rfl, rfl⟩

theorem mapM_error_head {f : β → Stateful ε σ γ} {bs : List β} {e : ε}
    (h : (f b).run s = (.error e, s')) : ((b :: bs).mapM f).run s = (.error e, s') := by
  rw [List.mapM_cons]
  exact bind_of_error h

theorem mapM_error_tail {f : β → Stateful ε σ γ} {bs : List β} {e : ε}
    (h : (f b).run s = (.ok c, s')) (hbs : (bs.mapM f).run s' = (.error e, s'')) :
    ((b :: bs).mapM f).run s = (.error e, s'') := by
  rw [List.mapM_cons, bind_of_ok h]
  exact bind_of_error hbs

theorem mapM_singleton_error {f : β → Stateful ε σ γ} {e : ε} :
    ([b].mapM f).run s = (.error e, s') ↔ (f b).run s = (.error e, s') := by
  constructor
  · intro h
    rw [List.mapM_cons, bind_run] at h
    split at h
    · cases h
    · rename_i hb
      cases h
      exact hb
  · exact mapM_error_head

/-- What a computation over a list does, by what it does for each member: `I` holds all along, `R`
relates the states and `Q` is what a member leaves behind. -/
theorem mapM_ok {I : σ → Prop} {R : σ → σ → Prop} {Q : β → γ → σ → Prop} {xs : List β}
    {ys : List γ} {f : β → Stateful ε σ γ} (hrefl : ∀ s, R s s)
    (htrans : ∀ {s s' s''}, R s s' → R s' s'' → R s s'')
    (hmono : ∀ {b c s s'}, Q b c s → R s s' → Q b c s')
    (hf : ∀ b ∈ xs, ∀ c s s', I s → (f b).run s = (.ok c, s') → I s' ∧ R s s' ∧ Q b c s')
    (hs : I s) (h : (xs.mapM f).run s = (.ok ys, s')) :
    I s' ∧ R s s' ∧ List.Forall₂ (Q · · s') xs ys := by
  induction xs generalizing ys s with
  | nil =>
    cases h
    exact ⟨hs, hrefl _, .nil⟩
  | cons b xs ih =>
    simp only [List.mapM_cons, bind_ok, pure_ok] at h
    obtain ⟨c, s₁, hb, cs, s₂, hxs, rfl, rfl⟩ := h
    obtain ⟨hi, hr, hq⟩ := hf b List.mem_cons_self c _ _ hs hb
    obtain ⟨hi', hr', hqs⟩ := ih (fun b hm => hf b (List.mem_cons_of_mem _ hm)) hi hxs
    exact ⟨hi', htrans hr hr', .cons (hmono hq hr') hqs⟩

/-- Computations that succeed from every state with the invariant `I` succeed one after the other.
-/
theorem mapM_total {I : σ → Prop} {R : σ → σ → Prop} {Q : β → γ → σ → Prop} {xs : List β}
    {f : β → Stateful ε σ γ} (hrefl : ∀ s, R s s)
    (htrans : ∀ {s s' s''}, R s s' → R s' s'' → R s s'')
    (hmono : ∀ {b c s s'}, Q b c s → R s s' → Q b c s')
    (hf : ∀ b ∈ xs, ∀ s, I s → ∃ c s', (f b).run s = (.ok c, s') ∧ I s' ∧ R s s' ∧ Q b c s')
    (hs : I s) :
    ∃ ys s', (xs.mapM f).run s = (.ok ys, s') ∧ I s' ∧ R s s' ∧ List.Forall₂ (Q · · s') xs ys := by
  induction xs generalizing s with
  | nil => exact ⟨[], s, rfl, hs, hrefl s, .nil⟩
  | cons b xs ih =>
    obtain ⟨c, s₁, hb, hi, hr, hq⟩ := hf b List.mem_cons_self s hs
    obtain ⟨cs, s', hxs, hi', hr', hqs⟩ := ih (fun b hm => hf b (List.mem_cons_of_mem _ hm)) hi
    refine ⟨c :: cs, s', ?_, hi', htrans hr hr', .cons (hmono hq hr') hqs⟩
    simp only [List.mapM_cons, bind_ok, pure_ok]
    exact ⟨c, s₁, hb, cs, s', hxs, rfl, rfl⟩

/-- Outcomes of computations on two states: the same answer or the same error, and states that are
related. -/
structure Alike {σ' : Type} (R : σ → σ' → Prop) (p : Except ε β × σ) (p' : Except ε β × σ') :
    Prop where
  answer : p.1 = p'.1
  states : R p.2 p'.2

namespace Alike

variable {σ' : Type} {R : σ → σ' → Prop} {y : Stateful ε σ' β} {g : β → Stateful ε σ' γ} {t : σ'}

/-- What follows is compared where the first part succeeds. -/
theorem bind (h : Alike R (x.run s) (y.run t))
    (hf : ∀ b s' t', x.run s = (.ok b, s') → R s' t' → Alike R ((f b).run s') ((g b).run t')) :
    Alike R ((x >>= f).run s) ((y >>= g).run t) := by
  obtain ⟨hanswer, hstates⟩ := h
  rw [bind_run, bind_run]
  rcases hx : x.run s with ⟨_ | b, s'⟩
  · rcases hy : y.run t with ⟨_ | b', t'⟩
    · rw [hx, hy] at hanswer hstates
      exact ⟨congrArg Except.error (Except.error.inj hanswer), hstates⟩
    · rw [hx, hy] at hanswer
      cases hanswer
  · rcases hy : y.run t with ⟨_ | b', t'⟩
    · rw [hx, hy] at hanswer
      cases hanswer
    · rw [hx, hy] at hanswer hstates
      cases hanswer
      exact hf b s' t' hx hstates

theorem tryCatch {f : ε → Stateful ε σ β} {g : ε → Stateful ε σ' β}
    (h : Alike R (x.run s) (y.run t))
    (hf : ∀ e s' t', R s' t' → Alike R ((f e).run s') ((g e).run t')) :
    Alike R ((tryCatch x f).run s) ((tryCatch y g).run t) := by
  obtain ⟨hanswer, hstates⟩ := h
  rw [tryCatch_run, tryCatch_run]
  generalize x.run s = p at hanswer hstates
  generalize y.run t = p' at hanswer hstates
  obtain ⟨_ | b, s'⟩ := p
  all_goals
    obtain ⟨_, t'⟩ := p'
    cases hanswer
  · exact hf _ s' t' hstates
  · exact ⟨rfl, hstates⟩

/-- Lists of computations, where each leaves a state with the invariant `I` behind that the next ones
need. -/
theorem mapM {I : σ → Prop} {f : β → Stateful ε σ γ} {g : β → Stateful ε σ' γ} {bs : List β}
    (hf : ∀ b ∈ bs, ∀ s t, I s → R s t → Alike R ((f b).run s) ((g b).run t))
    (hi : ∀ b ∈ bs, ∀ c s s', I s → (f b).run s = (.ok c, s') → I s') (hs : I s) (h : R s t) :
    Alike R ((bs.mapM f).run s) ((bs.mapM g).run t) := by
  induction bs generalizing s t with
  | nil => exact ⟨rfl, h⟩
  | cons b bs ih =>
    rw [List.mapM_cons, List.mapM_cons]
    refine (hf b List.mem_cons_self s t hs h).bind fun c s₁ t₁ hb h₁ => ?_
    have hrest := ih (fun b hm => hf b (List.mem_cons_of_mem _ hm))
      (fun b hm => hi b (List.mem_cons_of_mem _ hm)) (hi b List.mem_cons_self c s s₁ hs hb) h₁
    exact hrest.bind fun cs s₂ t₂ _ h₂ => ⟨rfl, h₂⟩

end Alike

end Stateful

namespace Realize

open Stateful

variable {α : Type} {r r' : Realization α σ} {h : Handle}

theorem onTarget_ok {call : Effect σ β} {b : β} :
    (onTarget call : Realize α σ β).run r = (.ok b, r') ↔
      ∃ t, call.run r.target = (.ok b, t) ∧ r' = { r with target := t } := by
  change ((call.run r.target).1.mapError RealizeError.network,
    { r with target := (call.run r.target).2 }) = (.ok b, r') ↔ _
  rcases call.run r.target with ⟨_ | b', t⟩
  · constructor
    · intro h
      cases h
    · rintro ⟨_, h, -⟩
      cases h
  · constructor
    · intro h
      cases h
      exact ⟨t, rfl, rfl⟩
    · rintro ⟨_, h, rfl⟩
      cases h
      rfl

@[simp] theorem ofParams_ok {x : Except ParamError β} {b : β} :
    (ofParams x : Realize α σ β).run r = (.ok b, r') ↔ x = .ok b ∧ r = r' := by
  cases x with
  | error e =>
    constructor
    · intro h
      cases h
    · rintro ⟨h, -⟩
      cases h
  | ok b' =>
    constructor
    · intro h
      cases h
      exact ⟨rfl, rfl⟩
    · rintro ⟨h, rfl⟩
      cases h
      rfl

@[simp] theorem remember_ok {n : Node} {u : Unit} :
    (remember n h : Realize α σ Unit).run r = (.ok u, r') ↔
      { r with memo := (n, h) :: r.memo } = r' :=
  modify_ok

theorem ofCall_ok {call : σ → Except NetworkError (β × σ)} {t t' : σ} {b : β} :
    (Effect.ofCall call).run t = (.ok b, t') ↔ call t = .ok (b, t') := by
  change Effect.ofCall call t = (.ok b, t') ↔ _
  unfold Effect.ofCall
  cases call t with
  | error e =>
    constructor
    · intro h
      cases h
    · intro h
      cases h
  | ok p =>
    constructor
    · intro h
      cases h
      rfl
    · intro h
      cases h
      rfl

variable [Scalar α] {net : Realization α (Network α)} {net' : Realization α (Network α)}

@[simp] theorem create_ok {q : Request α} :
    (onTarget (Target.network.create q)).run net = (.ok h, net') ↔
      ∃ t, net.target.create q = .ok (h, t) ∧ net' = { net with target := t } := by
  simp only [onTarget_ok, Target.network, ofCall_ok]

@[simp] theorem connect_ok {f : Handle} {u : Unit} :
    (onTarget (Target.network.connect h f)).run net = (.ok u, net') ↔
      ∃ t, net.target.connect h f = .ok t ∧ net' = { net with target := t } := by
  simp only [onTarget_ok, Target.network, ofCall_ok, map_eq_ok]
  simp

end Realize

end SignalGraph
