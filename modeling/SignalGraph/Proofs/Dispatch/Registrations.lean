import SignalGraph.Dispatch.Handlers
import SignalGraph.Proofs.Arithmetic.Rational
import SignalGraph.Proofs.Dispatch.Chains

namespace SignalGraph

open Build

variable {α : Type}

/-- A handler that is a function of its operands and parameters. -/
def Handler.Direct (h : Handler α) : Prop := ∀ d d' : Dispatcher α, h d = h d'

/-- A handler that has no answer to some operands. -/
def Handler.Declines (h : Handler α) (operands : List (Operand α)) (params : Params α)
    (g : Graph α) : Prop :=
  ∀ d, ∃ g', (h d operands params).run g = .ok (none, g')

/-- What a handler that does not decline comes to, a result or an error. -/
def Handler.Gives (h : Handler α) (operands : List (Operand α)) (params : Params α) (g : Graph α)
    (outcome : Except GraphError (Operand α × Graph α)) : Prop :=
  ∀ d, (h d operands params).run g = outcome.map fun answer => (some answer.1, answer.2)

theorem Handler.Direct.gives {h : Handler α} (hh : h.Direct) {operands : List (Operand α)}
    {params : Params α} {g : Graph α} (hd : ¬h.Declines operands params g) :
    ∃ outcome, h.Gives operands params g outcome := by
  -- any dispatcher will do
  let d : Dispatcher α := fun _ name _ _ => throw (.dispatch (.endless name))
  cases hrun : (h d operands params).run g with
  | error e =>
    refine ⟨.error e, fun d' => ?_⟩
    rw [hh d' d, hrun]
    rfl
  | ok asked =>
    obtain ⟨x, g'⟩ := asked
    cases x with
    | none => exact absurd (fun d' => ⟨g', by rw [hh d' d, hrun]⟩) hd
    | some x =>
      refine ⟨.ok (x, g'), fun d' => ?_⟩
      rw [hh d' d, hrun]
      rfl

/-- A registration for exactly this kind and name. -/
def Registration.Under (e : Registration α) (kind : DispatchKind) (name : String) : Prop :=
  e.kind = kind ∧ e.name = name

instance (e : Registration α) (kind : DispatchKind) (name : String) :
    Decidable (e.Under kind name) :=
  inferInstanceAs (Decidable (_ ∧ _))

namespace Registry

variable {r : Registry α} {d : Dispatcher α} {kind : DispatchKind} {name : String}
  {operands : List (Operand α)} {params : Params α} {g g' : Graph α}

/-- All handlers are functions of their operands and parameters. -/
def Direct (r : Registry α) : Prop := ∀ e ∈ r.history, e.handler.Direct

/-- All handlers under a kind and name decline, if there are any. -/
def Silent (r : Registry α) (kind : DispatchKind) (name : String) (operands : List (Operand α))
    (params : Params α) (g : Graph α) : Prop :=
  ∀ e ∈ r.history, e.Under kind name → e.handler.Declines operands params g

/-- How many registrations there are for a kind and name. -/
def handlerCount (r : Registry α) (kind : DispatchKind) (name : String) : Nat :=
  r.history.countP fun e => e.Under kind name

/-- What is said about a call that none of `count` handlers answers. -/
def unanswered (name : String) (count : Nat) : DispatchError :=
  if count = 0 then .noImplementation name else .allDeclined name count

theorem chain_append (newer older : List (Registration α)) (kind : DispatchKind) (name : String) :
    (⟨newer ++ older⟩ : Registry α).chain kind name =
      (⟨newer⟩ : Registry α).chain kind name ++ (⟨older⟩ : Registry α).chain kind name := by
  simp [chain]

theorem chain_under {e : Registration α} (he : e.Under kind name) (older : List (Registration α)) :
    (⟨e :: older⟩ : Registry α).chain kind name =
      e.handler :: (⟨older⟩ : Registry α).chain kind name := by
  simp [chain, he.1, he.2]

theorem chain_other {e : Registration α} (he : ¬e.Under kind name)
    (older : List (Registration α)) :
    (⟨e :: older⟩ : Registry α).chain kind name = (⟨older⟩ : Registry α).chain kind name := by
  have hkey : (decide (e.kind = kind) && decide (e.name = name)) = false := by
    simpa [Registration.Under] using he
  simp [chain, hkey]

theorem mem_chain {h : Handler α} :
    h ∈ r.chain kind name ↔ ∃ e ∈ r.history, e.Under kind name ∧ e.handler = h := by
  simp [chain, Registration.Under, and_assoc]

theorem length_chain (r : Registry α) (kind : DispatchKind) (name : String) :
    (r.chain kind name).length = r.handlerCount kind name := by
  rw [chain, List.length_map, handlerCount, List.countP_eq_length_filter]
  exact congrArg List.length (List.filter_congr fun e _ => (Bool.decide_and _ _).symm)

theorem isEmpty_chain : (r.chain kind name).isEmpty = decide (r.handlerCount kind name = 0) := by
  rw [← length_chain]
  cases r.chain kind name <;> simp

theorem handlerCount_eq_zero :
    r.handlerCount kind name = 0 ↔ ∀ e ∈ r.history, ¬e.Under kind name := by
  simp [handlerCount]

theorem unanswered_of_none (h : ∀ e ∈ r.history, ¬e.Under kind name) :
    unanswered name (r.handlerCount kind name) = .noImplementation name :=
  if_pos (handlerCount_eq_zero.2 h)

theorem unanswered_of_some (h : ∃ e ∈ r.history, e.Under kind name) :
    unanswered name (r.handlerCount kind name) =
      .allDeclined name (r.handlerCount kind name) := by
  obtain ⟨e, he, hunder⟩ := h
  exact if_neg fun hcount => handlerCount_eq_zero.1 hcount e he hunder

theorem chain_insert_other {newer older : List (Registration α)} {e : Registration α}
    (he : ¬e.Under kind name) :
    (⟨newer ++ e :: older⟩ : Registry α).chain kind name =
      (⟨newer ++ older⟩ : Registry α).chain kind name := by
  rw [chain_append, chain_append, chain_other he]

theorem handlerCount_insert {newer older : List (Registration α)} {e : Registration α}
    (he : e.Under kind name) :
    (⟨newer ++ e :: older⟩ : Registry α).handlerCount kind name =
      (⟨newer ++ older⟩ : Registry α).handlerCount kind name + 1 := by
  rw [← length_chain, ← length_chain, chain_append, chain_append, chain_under he]
  simp
  omega

theorem chain_swap {newer older : List (Registration α)} {e e' : Registration α}
    (h : ¬e'.Under e.kind e.name) (kind : DispatchKind) (name : String) :
    (⟨newer ++ e :: e' :: older⟩ : Registry α).chain kind name =
      (⟨newer ++ e' :: e :: older⟩ : Registry α).chain kind name := by
  by_cases he : e.Under kind name
  · obtain ⟨rfl, rfl⟩ := he
    rw [chain_append, chain_append, chain_under ⟨rfl, rfl⟩, chain_other h, chain_other h,
      chain_under ⟨rfl, rfl⟩]
  · rw [chain_insert_other he, chain_append, chain_append]
    congr 1
    by_cases he' : e'.Under kind name
    · rw [chain_under he', chain_under he', chain_other he]
    · rw [chain_other he', chain_other he', chain_other he]

/-- A handler that declines leaves the operation to the next one. -/
theorem firstAnswer_declined {h : Handler α} (hh : h.Declines operands params g)
    (hs : List (Handler α)) :
    (firstAnswer d operands params (h :: hs)).run g = (firstAnswer d operands params hs).run g := by
  obtain ⟨g', hg'⟩ := hh d
  rw [firstAnswer_run, hg']

theorem firstAnswer_append {newer : List (Handler α)}
    (hnewer : ∀ h ∈ newer, h.Declines operands params g) (older : List (Handler α)) :
    (firstAnswer d operands params (newer ++ older)).run g =
      (firstAnswer d operands params older).run g := by
  induction newer with
  | nil => rfl
  | cons h newer ih =>
    rw [List.cons_append, firstAnswer_declined (hnewer h List.mem_cons_self)]
    exact ih fun k hk => hnewer k (List.mem_cons_of_mem _ hk)

/-- A handler that declines may as well be left out. -/
theorem firstAnswer_insert {h : Handler α} (hh : h.Declines operands params g)
    (newer older : List (Handler α)) :
    (firstAnswer d operands params (newer ++ h :: older)).run g =
      (firstAnswer d operands params (newer ++ older)).run g := by
  induction newer with
  | nil => exact firstAnswer_declined hh older
  | cons k newer ih => rw [List.cons_append, List.cons_append, firstAnswer_run, firstAnswer_run, ih]

/-- Without an answer all handlers have declined. -/
theorem firstAnswer_none {hs : List (Handler α)} (hd : ∀ h ∈ hs, h.Direct)
    (h : (firstAnswer d operands params hs).run g = .ok (none, g')) :
    ∀ h ∈ hs, h.Declines operands params g := by
  induction hs with
  | nil => simp
  | cons k hs ih =>
    rw [firstAnswer_run] at h
    cases hk : (k d operands params).run g with
    | error e =>
      rw [hk] at h
      cases h
    | ok asked =>
      obtain ⟨x, g₁⟩ := asked
      rw [hk] at h
      cases x with
      | some x => cases h
      | none =>
        have hdeclines : k.Declines operands params g := by
          intro d'
          rw [hd k List.mem_cons_self d' d]
          exact ⟨g₁, hk⟩
        have hrest := ih (fun l hl => hd l (List.mem_cons_of_mem _ hl)) h
        intro l hl
        rcases List.mem_cons.1 hl with rfl | hl
        · exact hdeclines
        · exact hrest l hl

theorem firstAnswer_direct {hs : List (Handler α)} (hd : ∀ h ∈ hs, h.Direct)
    (d d' : Dispatcher α) :
    firstAnswer d operands params hs = firstAnswer d' operands params hs := by
  induction hs with
  | nil => rfl
  | cons h hs ih =>
    funext g
    change (firstAnswer d operands params (h :: hs)).run g =
      (firstAnswer d' operands params (h :: hs)).run g
    rw [firstAnswer_run, firstAnswer_run, hd h List.mem_cons_self d d',
      ih fun k hk => hd k (List.mem_cons_of_mem _ hk)]

theorem Direct.chain (hr : r.Direct) : ∀ h ∈ r.chain kind name, h.Direct := by
  intro h hh
  obtain ⟨e, he, -, rfl⟩ := mem_chain.1 hh
  exact hr e he

theorem silent_iff :
    r.Silent kind name operands params g ↔
      ∀ h ∈ r.chain kind name, h.Declines operands params g := by
  constructor
  · intro hs h hh
    obtain ⟨e, he, hunder, rfl⟩ := mem_chain.1 hh
    exact hs e he hunder
  · intro hs e he hunder
    exact hs e.handler (mem_chain.2 ⟨e, he, hunder, rfl⟩)

theorem Direct.remove {newer older : List (Registration α)} {e : Registration α}
    (h : (⟨newer ++ e :: older⟩ : Registry α).Direct) :
    (⟨newer ++ older⟩ : Registry α).Direct := by
  intro e' he'
  apply h e'
  simp only [List.mem_append, List.mem_cons] at he' ⊢
  tauto

theorem Direct.swap {newer older : List (Registration α)} {e e' : Registration α}
    (h : (⟨newer ++ e :: e' :: older⟩ : Registry α).Direct) :
    (⟨newer ++ e' :: e :: older⟩ : Registry α).Direct := by
  intro x hx
  apply h x
  simp only [List.mem_append, List.mem_cons] at hx ⊢
  tauto

/-- Handlers under other keys have no say in a call. -/
theorem Silent.of_none (h : ∀ e ∈ r.history, ¬e.Under kind name) :
    r.Silent kind name operands params g :=
  fun e he hunder => absurd hunder (h e he)

theorem Silent.insert {newer older : List (Registration α)} {e : Registration α}
    (hs : (⟨newer ++ older⟩ : Registry α).Silent kind name operands params g)
    (he : e.handler.Declines operands params g) :
    (⟨newer ++ e :: older⟩ : Registry α).Silent kind name operands params g := by
  intro e' he' hunder
  have hmem : e' = e ∨ e' ∈ newer ++ older := by
    simp only [List.mem_append, List.mem_cons] at he' ⊢
    tauto
  rcases hmem with rfl | hmem
  · exact he
  · exact hs e' hmem hunder

section Registered

variable {rs older newer : List (Registration α)} {e : Registration α}

/-- The history has the newest registration first. -/
theorem registerAll_eq (rs : List (Registration α)) : empty.registerAll rs = ⟨rs.reverse⟩ :=
  congrArg Registry.mk ((history_registerAll empty rs).trans (List.append_nil _))

theorem registerAll_append (r : Registry α) (rs es : List (Registration α)) :
    r.registerAll (rs ++ es) = (r.registerAll rs).registerAll es :=
  List.foldl_append

theorem registerAll_insert :
    empty.registerAll (older ++ e :: newer) = ⟨newer.reverse ++ e :: older.reverse⟩ := by
  simp [registerAll_eq]

theorem direct_registerAll :
    (empty.registerAll rs).Direct ↔ ∀ e ∈ rs, e.handler.Direct := by
  simp only [Direct, mem_history_registerAll]

theorem silent_registerAll :
    (empty.registerAll rs).Silent kind name operands params g ↔
      ∀ e ∈ rs, e.Under kind name → e.handler.Declines operands params g := by
  simp only [Silent, mem_history_registerAll]

theorem handlerCount_registerAll :
    (empty.registerAll rs).handlerCount kind name = rs.countP fun e => e.Under kind name := by
  rw [handlerCount, registerAll_eq, List.countP_reverse]

end Registered

variable [Scalar α]

/-- Handlers that do not dispatch answer alike through any dispatcher. -/
theorem Direct.call_eq (hr : r.Direct) (d d' : Dispatcher α) : r.call d = r.call d' := by
  funext kind name operands params
  simp only [call, firstAnswer_direct hr.chain d d']

theorem Direct.dispatch_eq (hr : r.Direct) (d : Dispatcher α) : r.dispatch = r.call d :=
  hr.call_eq _ d

/-- A call depends on the handlers under its kind and name only. -/
theorem call_congr {r' : Registry α} (h : r.chain kind name = r'.chain kind name) :
    r.call d kind name = r'.call d kind name := by
  funext operands params
  rw [call, call, h]

/-- An elementwise operation without nodes never gets to the handlers. -/
theorem call_numeric (hn : operands.any Operand.isGraph = false) :
    r.call d .ufunc name operands params = Build.ofGraph (Numeric.apply name operands) := by
  rw [call, hn]
  rfl

/-- The outcome of a call that gets to the handlers. -/
theorem call_outcome (hgraph : kind = .ufunc → operands.any Operand.isGraph = true) :
    (r.call d kind name operands params).run g =
      (firstAnswer d operands params (r.chain kind name)).run g >>=
        concluded (unanswered name (r.handlerCount kind name)) := by
  rw [call_run hgraph, isEmpty_chain, length_chain, unanswered]
  by_cases hcount : r.handlerCount kind name = 0
  · have hchain : r.chain kind name = [] := by
      rw [← List.length_eq_zero_iff, length_chain, hcount]
    rw [hchain, if_pos (decide_eq_true hcount), if_pos hcount]
    rfl
  · rw [if_neg fun h => hcount (of_decide_eq_true h), if_neg hcount]

theorem Silent.call (hs : r.Silent kind name operands params g)
    (hgraph : kind = .ufunc → operands.any Operand.isGraph = true) :
    (r.call d kind name operands params).run g =
      .error (.dispatch (unanswered name (r.handlerCount kind name))) := by
  have hfirst : (firstAnswer d operands params (r.chain kind name)).run g = .ok (none, g) := by
    have happend := firstAnswer_append (d := d) (silent_iff.1 hs) []
    rw [List.append_nil] at happend
    exact happend
  rw [call_outcome hgraph, hfirst]
  rfl

/-- Where all newer handlers under its key decline, a handler decides on the outcome. -/
theorem call_gives {newer older : List (Registration α)} {e : Registration α}
    {outcome : Except GraphError (Operand α × Graph α)}
    (hnewer : (⟨newer⟩ : Registry α).Silent kind name operands params g) (he : e.Under kind name)
    (ho : e.handler.Gives operands params g outcome)
    (hgraph : kind = .ufunc → operands.any Operand.isGraph = true) :
    ((⟨newer ++ e :: older⟩ : Registry α).call d kind name operands params).run g = outcome := by
  rw [call_outcome hgraph, chain_append, chain_under he, firstAnswer_append (silent_iff.1 hnewer),
    firstAnswer_run, ho d]
  cases outcome with
  | error e => rfl
  | ok answer => rfl

/-- A registration whose handler declines is only counted. -/
theorem call_insert {newer older : List (Registration α)} {e : Registration α}
    (hr : (⟨newer ++ older⟩ : Registry α).Direct) (he : e.handler.Declines operands params g) :
    ((⟨newer ++ e :: older⟩ : Registry α).call d kind name operands params).run g =
        ((⟨newer ++ older⟩ : Registry α).call d kind name operands params).run g ∨
      e.Under kind name ∧ (⟨newer ++ older⟩ : Registry α).Silent kind name operands params g ∧
        ((⟨newer ++ older⟩ : Registry α).call d kind name operands params).run g =
          .error (.dispatch
            (unanswered name ((⟨newer ++ older⟩ : Registry α).handlerCount kind name))) ∧
        ((⟨newer ++ e :: older⟩ : Registry α).call d kind name operands params).run g =
          .error (.dispatch (.allDeclined name
            ((⟨newer ++ older⟩ : Registry α).handlerCount kind name + 1))) := by
  by_cases hunder : e.Under kind name
  · by_cases hgraph : kind = .ufunc → operands.any Operand.isGraph = true
    · by_cases hs : (⟨newer ++ older⟩ : Registry α).Silent kind name operands params g
      · refine .inr ⟨hunder, hs, hs.call hgraph, ?_⟩
        have hmem : e ∈ newer ++ e :: older := List.mem_append_right _ List.mem_cons_self
        rw [(hs.insert he).call hgraph, unanswered_of_some ⟨e, hmem, hunder⟩,
          handlerCount_insert hunder]
      · left
        rw [call_outcome hgraph, call_outcome hgraph, chain_append newer (e :: older),
          chain_under hunder, firstAnswer_insert he, ← chain_append]
        -- some handler answers, so what would be said without an answer does not matter
        cases h : (firstAnswer d operands params
            ((⟨newer ++ older⟩ : Registry α).chain kind name)).run g with
        | error e => rfl
        | ok answer =>
          obtain ⟨x, g'⟩ := answer
          cases x with
          | none => exact absurd (silent_iff.2 (firstAnswer_none hr.chain h)) hs
          | some x => rfl
    · obtain ⟨rfl, hn⟩ := Classical.not_imp.1 hgraph
      rw [Bool.not_eq_true] at hn
      left
      rw [call_numeric hn, call_numeric hn]
  · left
    rw [call_congr (chain_insert_other hunder)]

/-- No built-in handler goes on to other operations. -/
theorem builtin_direct : (builtin : Registry α).Direct := by
  intro e he d d'
  have hmem : e ∈ (Builtin.registrations : List (Registration α)) := mem_history_registerAll.1 he
  simp only [Builtin.registrations, List.mem_append, List.mem_map, List.mem_cons,
    List.not_mem_nil, or_false] at hmem
  rcases hmem with (hbinary | hunary) | hother
  · obtain ⟨name, -, rfl⟩ := hbinary
    rfl
  · obtain ⟨name, -, rfl⟩ := hunary
    rfl
  · rcases hother with rfl | rfl | rfl | rfl | rfl | rfl | rfl | rfl | rfl <;> rfl

end Registry

/-- The most recent registration for a kind and name whose handler does not decline decides on the
outcome of a call; without one, the error says whether there was any registration, and how many. So
registrations that are put anywhere between others change nothing but that number unless they are for
the key of the call and have an answer, the order of two registrations under different keys is of no
account, and elementwise operations on numbers do not depend on the registrations at all. The built-in
handlers are registered like any others. -/
theorem newest_answer_prevails [Scalar α] :
    ((∀ e ∈ (Builtin.registrations : List (Registration α)), e.handler.Direct) ∧
      ∀ rs : List (Registration α), Registry.builtin.registerAll rs =
        Registry.empty.registerAll (Builtin.registrations ++ rs)) ∧
    (∀ (rs : List (Registration α)) (kind : DispatchKind) (name : String)
      (operands : List (Operand α)) (params : Params α) (g : Graph α),
      (∀ e ∈ rs, e.handler.Direct) → (kind = .ufunc → operands.any Operand.isGraph = true) →
      (∀ older e newer, rs = older ++ e :: newer → e.Under kind name →
        (∀ e' ∈ newer, e'.Under kind name → e'.handler.Declines operands params g) →
        ¬e.handler.Declines operands params g →
        ∃ outcome, e.handler.Gives operands params g outcome ∧
          ((Registry.empty.registerAll rs).dispatch kind name operands params).run g = outcome) ∧
      ((∀ e ∈ rs, ¬e.Under kind name) →
        ((Registry.empty.registerAll rs).dispatch kind name operands params).run g =
          .error (.dispatch (.noImplementation name))) ∧
      ((∃ e ∈ rs, e.Under kind name) →
        (∀ e ∈ rs, e.Under kind name → e.handler.Declines operands params g) →
        ((Registry.empty.registerAll rs).dispatch kind name operands params).run g =
          .error (.dispatch (.allDeclined name (rs.countP fun e => e.Under kind name))))) ∧
    (∀ (older newer : List (Registration α)) (e : Registration α),
      (∀ e' ∈ older ++ e :: newer, e'.handler.Direct) → ∀ (kind : DispatchKind) (name : String),
      (¬e.Under kind name →
        (Registry.empty.registerAll (older ++ e :: newer)).dispatch kind name =
          (Registry.empty.registerAll (older ++ newer)).dispatch kind name) ∧
      ∀ (operands : List (Operand α)) (params : Params α) (g : Graph α) (count : Nat),
        e.handler.Declines operands params g →
        ((older ++ newer).countP fun e' => e'.Under kind name) = count →
        ((Registry.empty.registerAll (older ++ e :: newer)).dispatch kind name operands params).run g =
            ((Registry.empty.registerAll (older ++ newer)).dispatch kind name operands params).run g ∨
          e.Under kind name ∧
            (∀ e' ∈ older ++ newer, e'.Under kind name → e'.handler.Declines operands params g) ∧
            ((Registry.empty.registerAll (older ++ newer)).dispatch kind name operands params).run g =
              .error (.dispatch (if count = 0 then .noImplementation name
                else .allDeclined name count)) ∧
            ((Registry.empty.registerAll (older ++ e :: newer)).dispatch kind name operands
              params).run g = .error (.dispatch (.allDeclined name (count + 1)))) ∧
    (∀ (older newer : List (Registration α)) (e e' : Registration α),
      (∀ x ∈ older ++ e' :: e :: newer, x.handler.Direct) → ¬e'.Under e.kind e.name →
      (Registry.empty.registerAll (older ++ e' :: e :: newer)).dispatch =
        (Registry.empty.registerAll (older ++ e :: e' :: newer)).dispatch) ∧
    ∀ (rs : List (Registration α)) (name : String) (operands : List (Operand α)) (params : Params α),
      operands.any Operand.isGraph = false →
      (Registry.empty.registerAll rs).dispatch .ufunc name operands params =
        Build.ofGraph (Numeric.apply name operands) := by
  -- a dispatcher for handlers that use none
  let d : Dispatcher α := fun _ name _ _ => throw (.dispatch (.endless name))
  refine ⟨⟨Registry.direct_registerAll.1 Registry.builtin_direct,
    fun rs => (Registry.registerAll_append _ _ _).symm⟩, ?_, ?_, ?_, ?_⟩
  · intro rs kind name operands params g hrs hgraph
    have hr : (Registry.empty.registerAll rs).Direct := Registry.direct_registerAll.2 hrs
    rw [hr.dispatch_eq d]
    refine ⟨?_, ?_, ?_⟩
    · intro older e newer hsplit he hnewer hanswers
      obtain ⟨outcome, ho⟩ := (hrs e (by simp [hsplit])).gives hanswers
      refine ⟨outcome, ho, ?_⟩
      rw [hsplit, Registry.registerAll_insert]
      rw [← Registry.silent_registerAll, Registry.registerAll_eq] at hnewer
      exact Registry.call_gives hnewer he ho hgraph
    · intro hnone
      have hnone' : ∀ e ∈ (Registry.empty.registerAll rs).history, ¬e.Under kind name :=
        fun e he => hnone e (Registry.mem_history_registerAll.1 he)
      have hsilent : (Registry.empty.registerAll rs).Silent kind name operands params g :=
        .of_none hnone'
      rw [hsilent.call hgraph, Registry.unanswered_of_none hnone']
    · intro hsome hdecline
      obtain ⟨e, he, hunder⟩ := hsome
      have hsilent := Registry.silent_registerAll.2 hdecline
      rw [hsilent.call hgraph,
        Registry.unanswered_of_some ⟨e, Registry.mem_history_registerAll.2 he, hunder⟩,
        Registry.handlerCount_registerAll]
  · intro older newer e hrs kind name
    have hr := Registry.direct_registerAll.2 hrs
    rw [Registry.registerAll_insert] at hr
    have hwithout : Registry.empty.registerAll (older ++ newer) =
        ⟨newer.reverse ++ older.reverse⟩ := by
      rw [Registry.registerAll_eq, List.reverse_append]
    rw [Registry.registerAll_insert, hr.dispatch_eq d, hwithout, hr.remove.dispatch_eq d]
    refine ⟨fun he => Registry.call_congr (Registry.chain_insert_other he), ?_⟩
    intro operands params g count he hcount
    rw [← Registry.silent_registerAll]
    rw [← Registry.handlerCount_registerAll] at hcount
    rw [hwithout] at hcount ⊢
    rw [← hcount]
    exact Registry.call_insert hr.remove he
  · intro older newer e e' hrs hkeys
    have hr := Registry.direct_registerAll.2 hrs
    have hpair : ∀ a b : Registration α, Registry.empty.registerAll (older ++ a :: b :: newer) =
        ⟨newer.reverse ++ b :: a :: older.reverse⟩ := by
      intro a b
      simp [Registry.registerAll_eq]
    rw [hpair] at hr
    rw [hpair, hpair, hr.dispatch_eq d, hr.swap.dispatch_eq d]
    funext kind name
    exact Registry.call_congr (Registry.chain_swap hkeys kind name)
  · intro rs name operands params hn
    exact Registry.call_numeric hn

/-- Registrations for one name under two kinds. -/
def pickers : List (Registration ℚ) :=
  [⟨.function, "pick", .refuse "old"⟩, ⟨.function, "pick", .scalar 2⟩,
    ⟨.method, "pick", .refuse "method"⟩]

/-- The newest handler declines, the one before it for functions answers. -/
def picked : List (Registration ℚ) := pickers ++ [⟨.function, "pick", .decline⟩]

theorem picked_direct : ∀ e ∈ picked, e.handler.Direct := by
  intro e he
  simp only [picked, pickers, List.mem_append, List.mem_cons, List.not_mem_nil, or_false] at he
  rcases he with (rfl | rfl | rfl) | rfl <;> exact fun _ _ => rfl

theorem decline_declines : (Handler.decline : Handler ℚ).Declines [] .empty .empty :=
  fun _ => ⟨.empty, rfl⟩

theorem scalar_answers : ¬(Handler.scalar 2 : Handler ℚ).Declines [] .empty .empty := by
  intro h
  obtain ⟨g', hg'⟩ := h (Registry.empty.registerAll picked).dispatch
  cases hg'

/-- Of the newest two handlers, the one for functions declines. -/
theorem picked_silent : ∀ e ∈ picked.drop 2, e.Under .function "pick" →
    e.handler.Declines [] .empty .empty := by
  intro e he hunder
  simp only [picked, pickers, List.cons_append, List.nil_append, List.drop, List.mem_cons,
    List.not_mem_nil, or_false] at he
  rcases he with rfl | rfl
  · cases hunder.1
  · exact decline_declines

theorem picked_prevails :
    ((Registry.empty.registerAll picked).dispatch .function "pick" [] .empty).run .empty =
      .ok (.scalar 2, .empty) ∧
    ((Registry.empty.registerAll picked).dispatch .method "sort" [] .empty).run .empty =
      .error (.dispatch (.noImplementation "sort")) ∧
    ((Registry.empty.registerAll (picked.drop 2)).dispatch .function "pick" [] .empty).run .empty =
      .error (.dispatch (.allDeclined "pick" 1)) ∧
    (Registry.empty.registerAll picked).dispatch .function "sum" =
      (Registry.empty.registerAll pickers).dispatch .function "sum" ∧
    ((Registry.empty.registerAll pickers).dispatch .function "pick" [] .empty).run .empty =
      .ok (.scalar 2, .empty) ∧
    (Registry.empty.registerAll picked).dispatch =
      (Registry.empty.registerAll (pickers.take 2 ++
        [⟨.function, "pick", .decline⟩, ⟨.method, "pick", .refuse "method"⟩])).dispatch ∧
    (Registry.builtin.registerAll picked).dispatch .ufunc "add" [.scalar 1, .scalar 2] .empty =
      Registry.builtin.dispatch .ufunc "add" [.scalar 1, .scalar 2] .empty := by
  obtain ⟨⟨-, hbuiltin⟩, houtcome, hinsert, hcommute, hnumeric⟩ :=
    newest_answer_prevails (α := ℚ)
  have hpicked : ((Registry.empty.registerAll picked).dispatch .function "pick" [] .empty).run
      .empty = .ok (.scalar 2, .empty) := by
    obtain ⟨hfirst, -, -⟩ :=
      houtcome picked .function "pick" [] .empty .empty picked_direct (by decide)
    obtain ⟨outcome, ho, hrun⟩ :=
      hfirst (picked.take 1) _ _ rfl ⟨rfl, rfl⟩ picked_silent scalar_answers
    rw [hrun]
    cases outcome with
    | error e => cases ho (Registry.empty.registerAll picked).dispatch
    | ok answer =>
      obtain ⟨x, g'⟩ := answer
      cases ho (Registry.empty.registerAll picked).dispatch
      rfl
  have hdeclined := hinsert pickers [] ⟨.function, "pick", .decline⟩ picked_direct
  rw [List.append_nil] at hdeclined
  refine ⟨hpicked, ?_, ?_, ?_, ?_, ?_, ?_⟩
  · obtain ⟨-, hnone, -⟩ :=
      houtcome picked .method "sort" [] .empty .empty picked_direct (by decide)
    exact hnone (by decide)
  · have hdirect : ∀ e ∈ picked.drop 2, e.handler.Direct := fun e he =>
      picked_direct e (List.mem_of_mem_drop he)
    obtain ⟨-, -, hall⟩ := houtcome _ .function "pick" [] .empty .empty hdirect (by decide)
    exact hall ⟨_, List.mem_cons_of_mem _ List.mem_cons_self, rfl, rfl⟩ picked_silent
  · exact (hdeclined .function "sum").1 (by decide)
  · rcases (hdeclined .function "pick").2 [] .empty .empty _ decline_declines rfl with h | h
    · exact h.symm.trans hpicked
    · obtain ⟨-, hpickers, -, -⟩ := h
      have hanswer := hpickers ⟨.function, "pick", .scalar 2⟩ (by simp [pickers]) ⟨rfl, rfl⟩
      exact absurd hanswer scalar_answers
  · exact hcommute (pickers.take 2) [] ⟨.function, "pick", .decline⟩
      ⟨.method, "pick", .refuse "method"⟩ picked_direct (by decide)
  · have hn : [Operand.scalar (1 : ℚ), .scalar 2].any Operand.isGraph = false := rfl
    rw [hbuiltin]
    exact (hnumeric _ "add" _ .empty hn).trans (hnumeric Builtin.registrations "add" _ .empty hn).symm

end SignalGraph
