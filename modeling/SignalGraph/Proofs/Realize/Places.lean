import SignalGraph.Proofs.Effects

namespace SignalGraph.Realize

open Stateful

variable {α σ : Type} (t : Target α σ) (g : Graph α) (defaults : Defaults α)

theorem place_eq (i : Nat) :
    place t g defaults i = do
      match (← get).built ⟨i⟩ with
      | some h => return h
      | none =>
        match g.records[i]? with
        | none => throw .foreignNode
        | some r =>
          match r.kind with
          | .state => throw .unboundState
          | .integrate state integrand =>
            let inputs ← r.inputs.mapM fun n => place t g defaults n.index
            match inputs with
            | [] => throw .unboundState
            | u :: _ =>
              let feedback ← onTarget (t.create (.feedback u))
              remember state feedback
              match integrand with
              | some f =>
                let rate ← place t g defaults f.index
                onTarget (t.connect feedback rate)
              | none => pure ()
              remember ⟨i⟩ feedback
              return feedback
          | .element e =>
            ofParams (g.checkOverlay ⟨i⟩ defaults)
            let config ← ofParams (g.resolve ⟨i⟩ e.configurable defaults)
            let inputs ← r.inputs.mapM fun n => place t g defaults n.index
            let h ← lower t e r.size inputs config
            remember ⟨i⟩ h
            return h := by
  rw [place]
  congr 1
  funext r
  cases r.built ⟨i⟩ with
  | some h => rfl
  | none =>
    simp only
    by_cases hi : i < g.records.size
    · have hr : g.records[i]? = some g.records[i] := Array.getElem?_eq_getElem hi
      rw [dif_pos hi, hr]
      simp only
      split
      · rename_i hk
        rw [hk]
      · rename_i state integrand hk
        rw [hk]
        simp only [List.mapM_subtype, List.unattach_attach]
        cases integrand <;> rfl
      · rename_i e hk
        rw [hk]
        simp only [List.mapM_subtype, List.unattach_attach]
    · have hr : g.records[i]? = none := Array.getElem?_eq_none (Nat.le_of_not_lt hi)
      rw [dif_neg hi, hr]

/-- The ways in which a place is realized. -/
inductive Placed (i : Nat) (r : Realization α σ) : Handle → Realization α σ → Prop
  | known {h : Handle} : r.built ⟨i⟩ = some h → Placed i r h r
  | element {rec : NodeRecord α} {e : Element α} {config : ResolvedConfig α} {inputs : List Handle}
    {h : Handle} {r₁ r₂ : Realization α σ} :
    r.built ⟨i⟩ = none → g.records[i]? = some rec → rec.kind = .element e →
    g.checkOverlay ⟨i⟩ defaults = .ok () → g.resolve ⟨i⟩ e.configurable defaults = .ok config →
    (rec.inputs.mapM fun n => place t g defaults n.index).run r = (.ok inputs, r₁) →
    (converse t (e.lower inputs config)).run r₁ = (.ok h, r₂) → h.size = rec.size →
      Placed i r h { r₂ with memo := (⟨i⟩, h) :: r₂.memo }
  | integrate {rec : NodeRecord α} {state : Node} {u : Handle} {us : List Handle} {h : Handle}
    {r₁ r₂ : Realization α σ} :
    r.built ⟨i⟩ = none → g.records[i]? = some rec → rec.kind = .integrate state none →
    (rec.inputs.mapM fun n => place t g defaults n.index).run r = (.ok (u :: us), r₁) →
    (onTarget (t.create (.feedback u))).run r₁ = (.ok h, r₂) →
      Placed i r h { r₂ with memo := (⟨i⟩, h) :: (state, h) :: r₂.memo }
  | closed {rec : NodeRecord α} {state f : Node} {u : Handle} {us : List Handle} {h rate : Handle}
    {r₁ r₂ r₃ r₄ : Realization α σ} :
    r.built ⟨i⟩ = none → g.records[i]? = some rec → rec.kind = .integrate state (some f) →
    (rec.inputs.mapM fun n => place t g defaults n.index).run r = (.ok (u :: us), r₁) →
    (onTarget (t.create (.feedback u))).run r₁ = (.ok h, r₂) →
    (place t g defaults f.index).run { r₂ with memo := (state, h) :: r₂.memo } = (.ok rate, r₃) →
    (onTarget (t.connect h rate)).run r₃ = (.ok (), r₄) →
      Placed i r h { r₄ with memo := (⟨i⟩, h) :: r₄.memo }

variable {t g defaults}

theorem lower_ok {e : Element α} {size : Nat} {inputs : List Handle} {config : ResolvedConfig α}
    {h : Handle} {r r' : Realization α σ} :
    (lower t e size inputs config).run r = (.ok h, r') ↔
      (converse t (e.lower inputs config)).run r = (.ok h, r') ∧ h.size = size := by
  simp only [lower, bind_ok]
  constructor
  · rintro ⟨h', r₁, hc, hs⟩
    split at hs
    · exact absurd hs throw_ok
    · rename_i hsize
      obtain ⟨rfl, rfl⟩ := pure_ok.1 hs
      exact ⟨hc, not_not.1 hsize⟩
  · rintro ⟨hc, hs⟩
    refine ⟨h, r', hc, ?_⟩
    rw [if_neg (not_not.2 hs)]
    exact pure_ok.2 ⟨rfl, rfl⟩

theorem place_ok {i : Nat} {h : Handle} {r r' : Realization α σ} :
    (place t g defaults i).run r = (.ok h, r') ↔ Placed t g defaults i r h r' := by
  rw [place_eq]
  simp only [bind_ok, get_ok]
  constructor
  · rintro ⟨_, _, ⟨rfl, rfl⟩, hp⟩
    split at hp
    · rename_i hb
      obtain ⟨rfl, rfl⟩ := pure_ok.1 hp
      exact .known hb
    · rename_i hb
      split at hp
      · exact absurd hp throw_ok
      · rename_i rec hr
        split at hp
        · exact absurd hp throw_ok
        · rename_i state integrand hk
          obtain ⟨inputs, r₁, hin, hp⟩ := bind_ok.1 hp
          split at hp
          · exact absurd hp throw_ok
          · rename_i u us
            cases integrand with
            | none =>
              simp only [bind_ok, remember_ok, pure_ok] at hp
              obtain ⟨h', r₂, hc, _, _, rfl, _, _, rfl, rfl, rfl⟩ := hp
              exact .integrate hb hr hk hin hc
            | some f =>
              simp only [bind_ok, remember_ok, pure_ok] at hp
              obtain ⟨h', r₂, hc, _, _, rfl, rate, r₃, hf, _, r₄, hcl, _, _, rfl, rfl, rfl⟩ := hp
              exact .closed hb hr hk hin hc hf hcl
        · rename_i e hk
          simp only [bind_ok, ofParams_ok, remember_ok, pure_ok, lower_ok] at hp
          obtain ⟨_, _, ⟨ho, rfl⟩, config, _, ⟨hres, rfl⟩, inputs, r₁, hin, h', r₂, ⟨hc, hs⟩,
            _, _, rfl, rfl, rfl⟩ := hp
          exact .element hb hr hk ho hres hin hc hs
  · intro hp
    refine ⟨r, r, ⟨rfl, rfl⟩, ?_⟩
    cases hp with
    | known hb =>
      rw [hb]
      exact pure_ok.2 ⟨rfl, rfl⟩
    | element hb hr hk ho hres hin hc hs =>
      rw [hb, hr]
      simp only [hk, bind_ok, ofParams_ok, remember_ok, pure_ok, lower_ok]
      exact ⟨_, _, ⟨ho, rfl⟩, _, _, ⟨hres, rfl⟩, _, _, hin, _, _, ⟨hc, hs⟩, ⟨⟩, _, rfl, rfl, rfl⟩
    | integrate hb hr hk hin hc =>
      rw [hb, hr]
      simp only [hk, bind_ok]
      refine ⟨_, _, hin, ?_⟩
      simp only [bind_ok, remember_ok, pure_ok]
      exact ⟨_, _, hc, ⟨⟩, _, rfl, ⟨⟩, _, rfl, rfl, rfl⟩
    | closed hb hr hk hin hc hf hcl =>
      rw [hb, hr]
      simp only [hk, bind_ok]
      refine ⟨_, _, hin, ?_⟩
      simp only [bind_ok, remember_ok, pure_ok]
      exact ⟨_, _, hc, ⟨⟩, _, rfl, _, _, hf, ⟨⟩, _, hcl, ⟨⟩, _, rfl, rfl, rfl⟩

/-- A node is realized like its place, unless an earlier realization failed. -/
theorem make_ok {n : Node} {h : Handle} {r r' : Realization α σ} :
    (make t g defaults n).run r = (.ok h, r') ↔
      r.poisoned = false ∧ (place t g defaults n.index).run r = (.ok h, r') := by
  simp only [make, bind_ok, get_ok]
  constructor
  · rintro ⟨_, _, ⟨rfl, rfl⟩, hm⟩
    split at hm
    · obtain ⟨_, _, hx, -⟩ := bind_ok.1 hm
      exact absurd hx throw_ok
    · rename_i hp
      rw [tryCatch_run] at hm
      split at hm
      · rename_i hpl
        cases hm
        exact ⟨by simpa using hp, hpl⟩
      · obtain ⟨_, _, -, hx⟩ := bind_ok.1 hm
        exact absurd hx throw_ok
  · rintro ⟨hp, hpl⟩
    refine ⟨r, r, ⟨rfl, rfl⟩, ?_⟩
    rw [if_neg (by simp [hp]), tryCatch_run, hpl]

/-- A failure on the way is the answer, and the realization is poisoned. -/
theorem make_error {n : Node} {e : RealizeError} {r r' : Realization α σ} (hp : r.poisoned = false)
    (h : (place t g defaults n.index).run r = (.error e, r')) :
    (make t g defaults n).run r = (.error e, { r' with memo := [], poisoned := true }) := by
  rw [make, bind_of_ok (get_ok.2 ⟨rfl, rfl⟩), if_neg (by simp [hp]), tryCatch_run, h]
  rfl

end SignalGraph.Realize
