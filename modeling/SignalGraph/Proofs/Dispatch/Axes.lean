import SignalGraph.Operation
import SignalGraph.Proofs.Arithmetic.Rational
import SignalGraph.Proofs.Arrays.Joining
import SignalGraph.Proofs.Dispatch.Chains

namespace SignalGraph

section Words

variable {n : Nat}

theorem wordCount_eq : wordCount = 2 ^ 64 := rfl

theorem signedWord_of_lt (h : n < 2 ^ 63) : signedWord n = n := by
  have hword := wordCount_eq
  have hmod : (n : Int) % (wordCount : Int) = n := Int.emod_eq_of_lt (by omega) (by omega)
  rw [signedWord, Int.bmod_def, hmod, if_pos (by omega)]

/-- The upper half of the words are the negative numbers. -/
theorem signedWord_of_le (h : 2 ^ 63 ≤ n) (hn : n < wordCount) :
    signedWord n = (n : Int) - wordCount := by
  have hword := wordCount_eq
  have hmod : (n : Int) % (wordCount : Int) = n := Int.emod_eq_of_lt (by omega) (by omega)
  rw [signedWord, Int.bmod_def, hmod, if_neg (by omega)]

end Words

namespace Shape

variable {a : Int} {k n rank : Nat}

theorem signedAxis_eq_ok :
    signedAxis a rank = .ok k ↔ k < rank ∧ (a = k ∨ a = (k : Int) - rank) := by
  simp only [signedAxis, Bool.or_eq_true, decide_eq_true_eq]
  by_cases hneg : a < 0
  · rw [if_pos hneg]
    split
    · simp only [reduceCtorEq, false_iff]
      omega
    · rw [Except.ok.injEq]
      omega
  · rw [if_neg hneg]
    split
    · simp only [reduceCtorEq, false_iff]
      omega
    · rw [Except.ok.injEq]
      omega

/-- An axis in range, counted from the front. -/
theorem exists_axis (hlow : -(rank : Int) ≤ a) (hhigh : a < rank) :
    ∃ k < rank, a = (k : Int) ∨ a = (k : Int) - rank := by
  by_cases hneg : a < 0
  · exact ⟨(a + rank).toNat, by omega, .inr (by omega)⟩
  · exact ⟨a.toNat, by omega, .inl (by omega)⟩

theorem signedAxis_eq_error (h : a < -(rank : Int) ∨ (rank : Int) ≤ a) :
    signedAxis a rank = .error (.axisOutOfBounds a.natAbs rank) := by
  simp only [signedAxis, Bool.or_eq_true, decide_eq_true_eq]
  rw [if_pos]
  split <;> omega

/-- A word that names no axis as it stands. -/
theorem signedAxis_word_error (hn : n < wordCount) (hlt : n + rank < wordCount) (hout : rank ≤ n) :
    signedAxis (signedWord n) rank = .error (.axisOutOfBounds (signedWord n).natAbs rank) := by
  refine signedAxis_eq_error ?_
  by_cases hhalf : n < 2 ^ 63
  · rw [signedWord_of_lt hhalf]
    omega
  · rw [signedWord_of_le (by omega) hn]
    omega

theorem signedAxis_word (hk : k < rank) (hhalf : k < 2 ^ 63) :
    signedAxis (signedWord k) rank = .ok k :=
  signedAxis_eq_ok.2 ⟨hk, .inl (signedWord_of_lt hhalf)⟩

/-- A word so large that it is negative as a signed number, by no more than the rank. -/
theorem signedAxis_word_end (hr : rank ≤ 2 ^ 63) (hn : n < wordCount) (hle : wordCount ≤ n + rank) :
    signedAxis (signedWord n) rank = .ok (n + rank - wordCount) := by
  have hword := wordCount_eq
  have hhalf : 2 ^ 63 ≤ n := by omega
  rw [signedWord_of_le hhalf hn]
  exact signedAxis_eq_ok.2 ⟨by omega, .inr (by omega)⟩

end Shape

open Build

variable {α : Type}

theorem Build.ofGraph_bind {β γ : Type} (b : β) (f : β → Build α γ) :
    (ofGraph (.ok b) >>= f) = f b :=
  rfl

theorem Build.error_bind {β γ : Type} {e : ShapeError} {f : β → Build α γ} {g : Graph α} :
    ((ofShape (.error e) : Build α β) >>= f).run g = .error (.shape e) :=
  rfl

theorem Builtin.axisParam_eq {params : Params α} {op : String} {rank : Nat} {a : Int}
    (hp : params.get? "axis" = some (.int a)) :
    axisParam op params rank = ofShape (Shape.signedAxis a rank) := by
  rw [axisParam, intParam, hp]
  rfl

variable [Scalar α]

/-- An operation that is not elementwise is answered by its only handler. -/
theorem Registry.dispatch_eq {kind : DispatchKind} {name : String} {handler : Handler α}
    (hkind : kind ≠ .ufunc) (hc : (builtin : Registry α).chain kind name = [handler])
    (operands : List (Operand α)) (params : Params α) :
    ∃ d, (builtin : Registry α).dispatch kind name operands params =
      handler d operands params >>= answered name := by
  refine ⟨(builtin : Registry α).dispatchWithin (builtin : Registry α).history.length, ?_⟩
  exact call_single (fun h => absurd h hkind) hc

/-- All that an operation makes of its parameters is an axis of a rank. -/
def ReadsAxis (kind : DispatchKind) (name : String) (operands : List (Operand α)) (rank : Nat)
    (body : Nat → Build α (Operand α)) : Prop :=
  ∀ (params : Params α) (a : Int), params.get? "axis" = some (.int a) →
    (Registry.builtin : Registry α).dispatch kind name operands params =
      ofShape (Shape.signedAxis a rank) >>= body

section Reads

variable {kind : DispatchKind} {name : String} {operands : List (Operand α)} {rank : Nat}
  {body : Nat → Build α (Operand α)} {params : Params α} {a : Int}

theorem readsAxis_of_handler {handler : Handler α} (rest : Nat → Build α (Option (Operand α)))
    (hkind : kind ≠ .ufunc) (hc : (Registry.builtin : Registry α).chain kind name = [handler])
    (hh : ∀ d (params : Params α) (a : Int), params.get? "axis" = some (.int a) →
      handler d operands params = ofShape (Shape.signedAxis a rank) >>= rest)
    (hbody : ∀ k, rest k >>= answered name = body k) :
    ReadsAxis kind name operands rank body := by
  intro params a hp
  obtain ⟨d, hd⟩ := Registry.dispatch_eq hkind hc operands params
  rw [hd, hh d params a hp, bind_assoc]
  exact congrArg (bind _) (funext hbody)

theorem readsAxis_of_axisParam {handler : Handler α} (rest : Nat → Build α (Option (Operand α)))
    (hkind : kind ≠ .ufunc) (hc : (Registry.builtin : Registry α).chain kind name = [handler])
    (hh : ∀ d params,
      handler d operands params = Builtin.axisParam name params rank >>= rest)
    (hbody : ∀ k, rest k >>= answered name = body k) :
    ReadsAxis kind name operands rank body :=
  readsAxis_of_handler rest hkind hc (fun d params a hp => by rw [hh, Builtin.axisParam_eq hp]) hbody

theorem ReadsAxis.refused (h : ReadsAxis kind name operands rank body)
    (hp : params.get? "axis" = some (.int a)) (ha : a < -(rank : Int) ∨ (rank : Int) ≤ a)
    (g : Graph α) :
    ((Registry.builtin : Registry α).dispatch kind name operands params).run g =
      .error (.shape (.axisOutOfBounds a.natAbs rank)) := by
  rw [h params a hp, Shape.signedAxis_eq_error ha, error_bind]

theorem ReadsAxis.answered {k : Nat} (h : ReadsAxis kind name operands rank body)
    (hp : params.get? "axis" = some (.int a)) (hk : Shape.signedAxis a rank = .ok k) :
    (Registry.builtin : Registry α).dispatch kind name operands params = body k := by
  rw [h params a hp, hk]
  rfl

end Reads

namespace Builtin

variable {first : Fold} {rest : List Fold} {x : Operand α} {f : Fold}

omit [Scalar α] in
/-- Along an axis with places there is a lane for each index of the other axes. -/
theorem mapLanes_eq {axis : Nat} (h : f.axisLength axis ≠ 0) (build : List Node → Build α Node) :
    mapLanes f axis build =
      NDArray.tabulateM (f.shape.eraseIdx axis) fun i => build (f.lane axis i) := by
  simp [mapLanes, h]

omit [Scalar α] in
theorem mapM_toFold (fs : List Fold) :
    (fs.map (Operand.fold (α := α))).mapM (fun x => ofGraph (α := α) x.toFold) = pure fs := by
  induction fs with
  | nil => rfl
  | cons f fs ih =>
    rw [List.map_cons, List.mapM_cons, ih]
    rfl

omit [Scalar α] in
theorem folds_fold (op : String) (first : Fold) (rest : List Fold) :
    folds (α := α) op ((first :: rest).map .fold) = pure (some (first :: rest)) := by
  have hall : ((first :: rest).map (Operand.fold (α := α))).all Operand.isGraph = true := by
    simp [Operand.isGraph]
  rw [folds, mapM_toFold, hall]
  rfl

theorem concatenate_reads (first : Fold) (rest : List Fold) :
    ReadsAxis .function "concatenate" ((first :: rest).map (Operand.fold (α := α))) first.rank
      fun k => .fold <$> ofShape (NDArray.concatenate (first :: rest) k) := by
  have hc : (Registry.builtin : Registry α).chain .function "concatenate" = [concatenate] := rfl
  refine readsAxis_of_axisParam
    (fun k => do return some (.fold (← ofShape (NDArray.concatenate (first :: rest) k)))) nofun hc
    (fun d params => ?_) fun k => ?_
  · rw [concatenate, folds_fold]
    rfl
  · cases NDArray.concatenate (first :: rest) k <;> rfl

theorem stack_reads (first : Fold) (rest : List Fold) :
    ReadsAxis .function "stack" ((first :: rest).map (Operand.fold (α := α))) (first.rank + 1)
      fun k => .fold <$> ofShape (stackAlong (first :: rest) k) := by
  have hc : (Registry.builtin : Registry α).chain .function "stack" = [stack] := rfl
  refine readsAxis_of_axisParam
    (fun k => do return some (.fold (← ofShape (stackAlong (first :: rest) k)))) nofun hc
    (fun d params => ?_) fun k => ?_
  · rw [stack, folds_fold]
    rfl
  · cases stackAlong (first :: rest) k <;> rfl

omit [Scalar α] in
theorem isGraph_of_toFold (hx : x.toFold = .ok f) : x.isGraph = true := by
  cases x with
  | fold f => rfl
  | node n => rfl
  | scalar c => cases hx
  | array a => cases hx

theorem bundle_reads (hx : x.toFold = .ok f) :
    ∃ body, ReadsAxis .method "bundle" [x] f.rank body := by
  have hrest : ∃ rest, ∀ d params,
      bundle d [x] params = axisParam "bundle" params f.rank >>= rest := by
    apply Exists.intro
    intro d params
    simp only [bundle, isGraph_of_toFold hx, hx, ofGraph_bind, Bool.not_true, Bool.false_eq_true,
      if_false]
    rfl
  obtain ⟨rest, hrest⟩ := hrest
  exact ⟨_, readsAxis_of_axisParam rest nofun rfl hrest fun k => rfl⟩

theorem unbundle_reads (hx : x.toFold = .ok f) :
    ∃ body, ReadsAxis .method "unbundle" [x] (f.rank + 1) body := by
  have hrest : ∃ rest, ∀ d params,
      unbundle d [x] params = axisParam "unbundle" params (f.rank + 1) >>= rest := by
    apply Exists.intro
    intro d params
    simp only [unbundle, isGraph_of_toFold hx, hx, ofGraph_bind, Bool.not_true, Bool.false_eq_true,
      if_false]
    rfl
  obtain ⟨rest, hrest⟩ := hrest
  exact ⟨_, readsAxis_of_axisParam rest nofun rfl hrest fun k => rfl⟩

end Builtin

section WordAxes

/-- What an operation makes of a word as an axis of some rank. An axis out of range is refused, unless
it is so near to the largest word that it counts from the end as a signed number. -/
structure WordAxes (op : Nat → Build α (Operand α)) (rank : Nat) : Prop where
  refused : ∀ axis, axis + rank < wordCount → rank ≤ axis → ∀ g,
    (op axis).run g = .error (.shape (.axisOutOfBounds (signedWord axis).natAbs rank))
  wrapped : ∀ axis, rank ≤ 2 ^ 63 → axis < wordCount → wordCount ≤ axis + rank →
    op axis = op (axis + rank - wordCount)

theorem ReadsAxis.words {kind : DispatchKind} {name : String} {operands : List (Operand α)}
    {rank : Nat} {body : Nat → Build α (Operand α)} (h : ReadsAxis kind name operands rank body) :
    WordAxes (fun axis => Registry.builtin.dispatch kind name operands (Operation.wordAxis axis))
      rank := by
  constructor
  · intro axis hlt hout g
    have hsigned := Shape.signedAxis_word_error (by omega) hlt hout
    rw [h _ _ rfl, hsigned, error_bind]
  · intro axis hrank haxis hle
    have hk : axis + rank - wordCount < rank := by omega
    have hhalf : axis + rank - wordCount < 2 ^ 63 := by omega
    rw [h.answered rfl (Shape.signedAxis_word_end hrank haxis hle),
      h.answered rfl (Shape.signedAxis_word hk hhalf)]

/-- Operations that take an axis as a word read it as a signed number. Arrays are concatenated as they
are along the word itself, and every axis out of range is refused, for all words that do not reach
over the last one with the rank added; those that do name an axis counted from the end. -/
theorem word_axes (first : Fold) (rest : List Fold) {x : Operand α} {f : Fold}
    (hx : x.toFold = .ok f) :
    (∀ axis, axis + first.rank < wordCount → ∀ (g g' : Graph α) y,
      (Operation.concatenate Registry.builtin.dispatch (first :: rest) axis).run g = .ok (y, g') ↔
        g' = g ∧ ∃ r, NDArray.concatenate (first :: rest) axis = .ok r ∧ y = .fold r) ∧
    WordAxes (α := α) (Operation.concatenate Registry.builtin.dispatch (first :: rest)) first.rank ∧
    WordAxes (α := α) (Operation.stack Registry.builtin.dispatch (first :: rest)) (first.rank + 1) ∧
    WordAxes (Operation.bundle Registry.builtin.dispatch x) f.rank ∧
    WordAxes (Operation.unbundle Registry.builtin.dispatch x) (f.rank + 1) := by
  have hconcatenate : WordAxes (α := α)
      (Operation.concatenate Registry.builtin.dispatch (first :: rest)) first.rank :=
    (Builtin.concatenate_reads first rest).words
  obtain ⟨_, hbundle⟩ := Builtin.bundle_reads hx
  obtain ⟨_, hunbundle⟩ := Builtin.unbundle_reads hx
  refine ⟨fun axis hlt g g' y => ?_, hconcatenate, (Builtin.stack_reads first rest).words,
    hbundle.words, hunbundle.words⟩
  by_cases haxis : axis < first.rank
  · have hsigned := Shape.signedAxis_word haxis (by rw [wordCount_eq] at hlt; omega)
    rw [Operation.concatenate, (Builtin.concatenate_reads first rest).answered rfl hsigned, map_ok]
    simp only [ofShape_ok]
    constructor
    · rintro ⟨r, ⟨hr, rfl⟩, rfl⟩
      exact ⟨rfl, r, hr, rfl⟩
    · rintro ⟨rfl, r, hr, rfl⟩
      exact ⟨r, ⟨hr, rfl⟩, rfl⟩
  · rw [hconcatenate.refused axis hlt (Nat.le_of_not_lt haxis) g]
    constructor
    · intro h
      cases h
    · rintro ⟨-, r, hr, -⟩
      exact absurd (NDArray.concatenate_eq_ok.1 hr).1 haxis

/-- Two nodes in a row. -/
def twoNodes : Fold := ⟨[2], #v[⟨1⟩, ⟨2⟩]⟩

/-- The row behind itself, along its axis and along one that it does not have. -/
theorem twoNodes_joined :
    (∃ r, (Operation.concatenate Registry.builtin.dispatch [twoNodes, twoNodes] 0).run
        (Graph.empty : Graph ℚ) = .ok (.fold r, .empty) ∧ r.shape = [4] ∧
      r.toList = [⟨1⟩, ⟨2⟩, ⟨1⟩, ⟨2⟩]) ∧
    (Operation.bundle Registry.builtin.dispatch (.fold twoNodes) (2 ^ 64 - 2)).run
      (Graph.empty : Graph ℚ) = .error (.shape (.axisOutOfBounds 2 1)) := by
  have hx : (Operand.fold twoNodes : Operand ℚ).toFold = .ok twoNodes := rfl
  obtain ⟨hconcatenate, -, -, hbundle, -⟩ := word_axes twoNodes [twoNodes] hx
  refine ⟨⟨⟨[4], #v[⟨1⟩, ⟨2⟩, ⟨1⟩, ⟨2⟩]⟩, ?_, rfl, rfl⟩, ?_⟩
  · exact (hconcatenate 0 (by decide) _ _ _).2 ⟨rfl, _, by rfl, rfl⟩
  · exact hbundle.refused (2 ^ 64 - 2) (by decide) (by decide) _

/-- The largest word names the only axis of a row, which is no axis of the row as it stands. -/
theorem largest_word_concatenates :
    (Operation.concatenate Registry.builtin.dispatch [twoNodes] (2 ^ 64 - 1)).run
      (Graph.empty : Graph ℚ) = .ok (.fold twoNodes, .empty) ∧
    NDArray.concatenate [twoNodes] (2 ^ 64 - 1) = .error (.axisOutOfBounds (2 ^ 64 - 1) 1) := by
  constructor
  · have hsigned : Shape.signedAxis (signedWord (2 ^ 64 - 1)) twoNodes.rank = .ok 0 := by decide
    rw [Operation.concatenate, (Builtin.concatenate_reads twoNodes []).answered rfl hsigned]
    rfl
  · rfl

end WordAxes

end SignalGraph
