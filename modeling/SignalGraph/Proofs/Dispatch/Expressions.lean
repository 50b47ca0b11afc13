import SignalGraph.Proofs.Dispatch.Chains
import SignalGraph.Proofs.Dispatch.Positions

namespace SignalGraph

open Build

variable {α : Type} [Scalar α] {g g' : Graph α} {value value' : Nat → List α}

/-- An operand in place of one with numbers. Without nodes it is the same one; else it has the same
shape, and what stands at each position stands for the number there. -/
structure Operand.Represents (g : Graph α) (value : Nat → List α) (x y : Operand α) : Prop where
  numeric : x.isGraph = false → x = y
  numbers : ∃ a : NDArray α, y.toNumeric? = some a ∧ x.shape = a.shape ∧
    ∀ i, Shape.Within i a.shape → (x.cells.entry i).Stands g value (a.entry i)

namespace Operand.Represents

theorem later {x y : Operand α} (h : x.Represents g value y) (hl : g.Later value g' value') :
    x.Represents g' value' y := by
  obtain ⟨a, ha, hshape, hall⟩ := h.numbers
  exact ⟨h.numeric, a, ha, hshape, fun i hi => (hall i hi).later hl⟩

/-- Numbers stand for themselves. -/
theorem self {y : Operand α} {a : NDArray α} (h : y.toNumeric? = some a) :
    y.Represents g value y := by
  cases y with
  | fold f => cases h
  | node n => cases h
  | scalar c =>
    cases h
    refine ⟨fun _ => rfl, _, rfl, rfl, ?_⟩
    intro i hi
    cases i with
    | nil => rfl
    | cons k i => exact absurd hi (by simp [NDArray.single, Shape.Within])
  | array b =>
    cases h
    refine ⟨fun _ => rfl, _, rfl, rfl, ?_⟩
    intro i hi
    change ((a.map Cell.scalar).entry i).Stands g value (a.entry i)
    rw [NDArray.entry_map hi]
    rfl

end Operand.Represents

omit [Scalar α] in
theorem Operand.isGraph_ofNumeric (a : NDArray α) : (ofNumeric a).isGraph = false := by
  unfold ofNumeric
  split <;> rfl

omit [Scalar α] in
theorem Operand.toNumeric?_ofNumeric (a : NDArray α) : (ofNumeric a).toNumeric? = some a := by
  unfold ofNumeric
  split
  · rename_i c hc
    rw [NDArray.toSingle?_eq_some.1 hc]
    rfl
  · rfl

namespace Numeric

theorem apply_unary (op : UnaryOp) {y : Operand α} {a : NDArray α} (h : y.toNumeric? = some a) :
    apply op.name [y] = .ok (.ofNumeric (a.map op.apply)) := by
  simp only [apply, List.filterMap_cons, List.filterMap_nil, h, UnaryOp.unary_name]

theorem apply_binary (op : BinaryOp) {y z : Operand α} {a b : NDArray α}
    (hy : y.toNumeric? = some a) (hz : z.toNumeric? = some b) :
    apply op.name [y, z] = .ofNumeric <$> zip op.apply a b := by
  simp only [apply, List.filterMap_cons, List.filterMap_nil, hy, hz, BinaryOp.binary_name]

/-- Two arrays are joined where both can be stretched. -/
theorem zip_eq_ok {f : α → α → α} {a b : NDArray α} {s : Shape}
    (hs : Shape.broadcast a.shape b.shape = .ok s) (ha : Shape.spreads a.shape s = true)
    (hb : Shape.spreads b.shape s = true) :
    ∃ c, zip f a b = .ok c ∧ c.shape = s ∧ ∀ i, Shape.Within i s →
      c.entry i = f (a.entry (Shape.restrict a.shape i)) (b.entry (Shape.restrict b.shape i)) := by
  refine ⟨.tabulate s fun i => f ((a.gather s (Shape.restrict a.shape)).entry i)
    ((b.gather s (Shape.restrict b.shape)).entry i), ?_, rfl, ?_⟩
  · simp only [zip, hs, NDArray.spread?_eq_some.2 ⟨ha, rfl⟩, NDArray.spread?_eq_some.2 ⟨hb, rfl⟩]
    rfl
  · intro i hi
    rw [NDArray.entry_tabulate hi, NDArray.entry_gather hi, NDArray.entry_gather hi]

end Numeric

namespace Registry

theorem chain_binary (op : BinaryOp) :
    (builtin : Registry α).chain .ufunc op.name = [Builtin.binary op.name] := by
  cases op <;> rfl

theorem chain_unary (op : UnaryOp) :
    (builtin : Registry α).chain .ufunc op.name = [Builtin.unary op.name] := by
  cases op <;> rfl

/-- An elementwise operation without nodes is computed at once. -/
theorem ufunc_numeric {name : String} {operands : List (Operand α)} {z : Operand α}
    (hn : operands.any Operand.isGraph = false) :
    (Operation.ufunc builtin.dispatch name operands).run g = .ok (z, g') ↔
      Numeric.apply name operands = .ok z ∧ g = g' := by
  rw [Operation.ufunc, dispatch, dispatchWithin, call, hn, ← ofGraph_ok]
  rfl

/-- An elementwise operation with nodes is answered by its only handler. -/
theorem ufunc_graph {name : String} {operands : List (Operand α)} {z : Operand α}
    {handler : Handler α} (hn : operands.any Operand.isGraph = true)
    (hc : (builtin : Registry α).chain .ufunc name = [handler])
    (h : (Operation.ufunc builtin.dispatch name operands).run g = .ok (z, g')) :
    ∃ d, (handler d operands .empty).run g = .ok (some z, g') := by
  rw [Operation.ufunc, dispatch, dispatchWithin, call_single (fun _ => hn) hc] at h
  obtain ⟨answer, g₁, hanswer, h⟩ := bind_ok.1 h
  cases answer with
  | none => exact absurd h throw_ok
  | some x =>
    obtain ⟨rfl, rfl⟩ := pure_ok.1 h
    exact ⟨_, hanswer⟩

end Registry

namespace Builtin

theorem binary_ok {op : BinaryOp} {d : Dispatcher α} {x y z : Operand α} {params : Params α}
    (h : (binary op.name d [x, y] params).run g = .ok (some z, g')) :
    (Operand.broadcastMap [x, y] (binaryNode op.name) : Build α (Operand α)).run g = .ok (z, g') := by
  simp only [binary] at h
  split at h
  · obtain ⟨hx, -⟩ := pure_ok.1 h
    cases hx
  · obtain ⟨b, hb, hsome⟩ := map_ok.1 h
    cases hsome
    exact hb

theorem unary_ok {op : UnaryOp} {d : Dispatcher α} {x z : Operand α} {params : Params α}
    (h : (unary op.name d [x] params).run g = .ok (some z, g')) :
    (Operand.broadcastMap [x] (unaryNode op.name op.apply) : Build α (Operand α)).run g =
      .ok (z, g') := by
  simp only [unary, UnaryOp.unary_name] at h
  obtain ⟨b, hb, hsome⟩ := map_ok.1 h
  cases hsome
  exact hb

end Builtin

namespace Operand.Represents

variable [Scalar.Exact α] {x y z : Operand α}

/-- What an operation of one operand builds stands for what it computes. -/
theorem unary (op : UnaryOp) {y : Operand α} (hs : g.Steady value) (hx : x.Represents g value y)
    (h : (Operation.ufunc Registry.builtin.dispatch op.name [x]).run g = .ok (z, g')) :
    ∃ value' w, g.Later value g' value' ∧ Numeric.apply op.name [y] = .ok w ∧
      z.Represents g' value' w ∧ z.isGraph = x.isGraph := by
  obtain ⟨a, ha, hshape, hall⟩ := hx.numbers
  have happly := Numeric.apply_unary op ha
  cases hn : x.isGraph with
  | false =>
    obtain rfl := hx.numeric hn
    obtain ⟨hz, rfl⟩ := (Registry.ufunc_numeric (by simp [hn])).1 h
    rw [happly] at hz
    cases hz
    exact ⟨value, _, .refl hs, happly, .self (toNumeric?_ofNumeric _), isGraph_ofNumeric _⟩
  | true =>
    obtain ⟨d, hd⟩ := Registry.ufunc_graph (by simp [hn]) (Registry.chain_unary op) h
    obtain ⟨hb, -, hgraph, value', hl, hcells⟩ := broadcastMap_steady
      (v := fun i => op.apply (a.entry (Shape.restrict a.shape i))) hs
      (fun s i hspread hi g₁ g₂ value₁ n hl₁ hrun => by
        have hw := Shape.within_restrict (hspread x List.mem_cons_self) hi
        rw [hshape] at hw
        refine Builtin.unaryNode_steady op hl₁.steady ((hall _ hw).later hl₁) ?_
        rw [← hshape]
        exact hrun) (Builtin.unary_ok hd)
    have hz : z.shape = a.shape := by
      rw [List.map_singleton, Shape.broadcastAll_one, hshape] at hb
      exact (Except.ok.inj hb).symm
    refine ⟨value', _, hl, happly, ⟨?_, _, toNumeric?_ofNumeric _, hz, ?_⟩, hgraph⟩
    · intro hnum
      rw [hgraph] at hnum
      cases hnum
    · intro i hi
      have hi' : Shape.Within i a.shape := hi
      have hstands := hcells i (hz ▸ hi')
      rw [Shape.restrict_self hi'] at hstands
      rw [NDArray.entry_map hi']
      exact hstands

/-- What an operation of two operands builds stands for what it computes, at every position of their
common shape. -/
theorem binary (op : BinaryOp) {u v : Operand α} (hs : g.Steady value)
    (hx : x.Represents g value u) (hy : y.Represents g value v)
    (h : (Operation.ufunc Registry.builtin.dispatch op.name [x, y]).run g = .ok (z, g')) :
    ∃ value' w, g.Later value g' value' ∧ Numeric.apply op.name [u, v] = .ok w ∧
      z.Represents g' value' w ∧ z.isGraph = (x.isGraph || y.isGraph) := by
  obtain ⟨a, ha, hxshape, hxall⟩ := hx.numbers
  obtain ⟨b, hb, hyshape, hyall⟩ := hy.numbers
  have happly := Numeric.apply_binary op ha hb
  have hany : [x, y].any isGraph = (x.isGraph || y.isGraph) := by simp
  rw [← hany]
  cases hn : [x, y].any isGraph with
  | false =>
    obtain ⟨hz, rfl⟩ := (Registry.ufunc_numeric hn).1 h
    rw [hany, Bool.or_eq_false_iff] at hn
    obtain rfl := hx.numeric hn.1
    obtain rfl := hy.numeric hn.2
    rw [happly] at hz
    obtain ⟨c, hc, rfl⟩ := map_eq_ok.1 hz
    exact ⟨value, _, .refl hs, happly.trans hz, .self (toNumeric?_ofNumeric c), isGraph_ofNumeric c⟩
  | true =>
    obtain ⟨d, hd⟩ := Registry.ufunc_graph hn (Registry.chain_binary op) h
    obtain ⟨hbroadcast, hspread, hgraph, value', hl, hcells⟩ := broadcastMap_steady
      (v := fun i => op.apply (a.entry (Shape.restrict a.shape i))
        (b.entry (Shape.restrict b.shape i))) hs
      (fun s i hspread hi g₁ g₂ value₁ n hl₁ hrun => by
        have hw := Shape.within_restrict (hspread x List.mem_cons_self) hi
        have hw' := Shape.within_restrict (hspread y (List.mem_cons_of_mem x List.mem_cons_self)) hi
        rw [hxshape] at hw
        rw [hyshape] at hw'
        refine Builtin.binaryNode_steady op hl₁.steady ((hxall _ hw).later hl₁)
          ((hyall _ hw').later hl₁) ?_
        rw [← hxshape, ← hyshape]
        exact hrun) (Builtin.binary_ok hd)
    have hxs := hspread x List.mem_cons_self
    have hys := hspread y (List.mem_cons_of_mem x List.mem_cons_self)
    rw [List.map_cons, List.map_singleton, Shape.broadcastAll_two, hxshape, hyshape] at hbroadcast
    rw [hxshape] at hxs
    rw [hyshape] at hys
    obtain ⟨c, hc, hcs, hentry⟩ := Numeric.zip_eq_ok (f := op.apply) hbroadcast hxs hys
    rw [hc] at happly
    refine ⟨value', _, hl, happly, ⟨?_, c, toNumeric?_ofNumeric c, hcs.symm, ?_⟩, hgraph⟩
    · intro hnum
      rw [hgraph] at hnum
      cases hnum
    · intro i hi
      rw [hcs] at hi
      rw [hentry i hi]
      exact hcells i hi

end Operand.Represents

/-- A tree of elementwise operations. Its leaves are numbers, each of them to be built as it is or
as a source. -/
inductive Expression (α : Type) where
  | scalar (c : α) (source : Bool)
  | array (a : NDArray α) (source : Bool)
  | unary (op : UnaryOp) (e : Expression α)
  | binary (op : BinaryOp) (e f : Expression α)

namespace Expression

/-- Whether one of the leaves is built as a source. -/
def hasSource : Expression α → Bool
  | scalar _ source | array _ source => source
  | unary _ e => e.hasSource
  | binary _ e f => e.hasSource || f.hasSource

/-- The expression computed on its numbers. -/
def eager : Expression α → Except GraphError (Operand α)
  | scalar c _ => .ok (.scalar c)
  | array a _ => .ok (.array a)
  | unary op e => do Numeric.apply op.name [← eager e]
  | binary op e f => do Numeric.apply op.name [← eager e, ← eager f]

/-- The expression built with the built-in handlers. -/
def build : Expression α → Build α (Operand α)
  | scalar c true => .node <$> Build.stimulus (.constant [c])
  | scalar c false => return .scalar c
  | array a true => Operation.stimuli a
  | array a false => return .array a
  | unary op e => do Operation.ufunc Registry.builtin.dispatch op.name [← build e]
  | binary op e f => do Operation.ufunc Registry.builtin.dispatch op.name [← build e, ← build f]

/-- What is built stands for what is computed, and then there is such a result. It has nodes where a
leaf is a source. -/
theorem build_represents [Scalar.Exact α] (e : Expression α) {x : Operand α} (hs : g.Steady value)
    (h : e.build.run g = .ok (x, g')) :
    ∃ value' y, g.Later value g' value' ∧ e.eager = .ok y ∧ x.Represents g' value' y ∧
      x.isGraph = e.hasSource := by
  induction e generalizing g g' value x with
  | scalar c source =>
    cases source with
    | false =>
      obtain ⟨rfl, rfl⟩ := pure_ok.1 h
      exact ⟨value, _, .refl hs, rfl, .self rfl, rfl⟩
    | true =>
      obtain ⟨n, hn, rfl⟩ := map_ok.1 h
      obtain ⟨value', hl, hc⟩ := stimulus_steady hs hn
      refine ⟨value', _, hl, rfl, ⟨Bool.noConfusion, _, rfl, rfl, ?_⟩, rfl⟩
      intro i hi
      cases i with
      | nil => exact hc
      | cons k i => exact absurd hi (by simp [NDArray.single, Shape.Within])
  | array a source =>
    cases source with
    | false =>
      obtain ⟨rfl, rfl⟩ := pure_ok.1 h
      exact ⟨value, _, .refl hs, rfl, .self rfl, rfl⟩
    | true =>
      obtain ⟨ns, value', rfl, hshape, hl, hall⟩ := stimuli_steady hs h
      refine ⟨value', _, hl, rfl, ⟨Bool.noConfusion, a, rfl, hshape, ?_⟩, rfl⟩
      intro i hi
      change ((ns.map Cell.node).entry i).Stands g' value' (a.entry i)
      rw [NDArray.entry_map (hshape ▸ hi)]
      exact hall i hi
  | unary op e ih =>
    obtain ⟨x, g₁, hx, h⟩ := bind_ok.1 h
    obtain ⟨value₁, y, hl₁, hy, hr, hsource⟩ := ih hs hx
    obtain ⟨value', w, hl, hw, hz, hgraph⟩ := hr.unary op hl₁.steady h
    exact ⟨value', w, hl₁.trans hl, bind_eq_ok.2 ⟨y, hy, hw⟩, hz, hgraph.trans hsource⟩
  | binary op e f ihe ihf =>
    obtain ⟨x, g₁, hx, h⟩ := bind_ok.1 h
    obtain ⟨y, g₂, hy, h⟩ := bind_ok.1 h
    obtain ⟨value₁, u, hl₁, hu, hxu, hsource⟩ := ihe hs hx
    obtain ⟨value₂, v, hl₂, hv, hyv, hsource'⟩ := ihf hl₁.steady hy
    obtain ⟨value', w, hl, hw, hz, hgraph⟩ := (hxu.later hl₂).binary op hl₂.steady hyv h
    refine ⟨value', w, (hl₁.trans hl₂).trans hl, ?_, hz, ?_⟩
    · exact bind_eq_ok.2 ⟨u, hu, bind_eq_ok.2 ⟨v, hv, hw⟩⟩
    · rw [hgraph, hsource, hsource', hasSource]

end Expression

end SignalGraph
