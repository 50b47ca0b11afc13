import Mathlib.Algebra.GroupWithZero.Nat
import SignalGraph.Proofs.Lowering.Kinds
import SignalGraph.Simulation.Circuit

namespace SignalGraph

variable {α : Type} [Scalar α]

/-- A graph of built-in kinds, as construction makes them: an integrator has one input of its size
and a placeholder of its own, and a bundle has room for all of its inputs. -/
structure Blueprint (α : Type) [Scalar α] where
  graph : Graph α
  /-- The kind of the element node at a place. -/
  kind : Nat → BuiltinKind α
  defaults : Defaults α
  element : ∀ (i : Nat) (r : NodeRecord α) (e : Element α),
    graph.records[i]? = some r → r.kind = .element e → e = (kind i).element
  bundle : ∀ (i : Nat) (r : NodeRecord α) (e : Element α), graph.records[i]? = some r →
    r.kind = .element e → kind i = .bundle → r.size = (r.inputs.map graph.sizeOf).sum
  integrate : ∀ (i : Nat) (r : NodeRecord α) (s : Node) (f : Option Node),
    graph.records[i]? = some r → r.kind = .integrate s f →
      (∃ u, r.inputs = [u] ∧ graph.sizeOf u = r.size) ∧
      ∃ p : NodeRecord α, graph.record? s = some p ∧ p.kind = .state ∧ p.size = r.size
  owner : ∀ (i j : Nat) (r r' : NodeRecord α) (s : Node) (f f' : Option Node),
    graph.records[i]? = some r → graph.records[j]? = some r' → r.kind = .integrate s f →
      r'.kind = .integrate s f' → i = j

/-- The values of a signal at a time. -/
def Signal.valueAt (t : α) : Signal α → List α
  | constant values => values
  | timed _ function => function t

/-- The product of a matrix and a vector. -/
def Matrix.apply (m : Matrix α) (x : List α) : List α := m.rows.map fun r => Scalar.dot r x

/-- The sum of vectors of `size` values, each times its matrix. -/
def Matrix.weightedSum (size : Nat) (xs : List (List α)) (ms : List (Matrix α)) : List α :=
  (xs.zip ms).foldl (fun acc p => List.zipWith (· + ·) acc (p.2.apply p.1))
    (List.replicate size Scalar.zero)

/-- What a filter with the time constant `tau` keeps of its value over a step: nothing where the time
constant is zero. -/
def BuiltinKind.kept (dt tau : α) : α :=
  if Scalar.same tau Scalar.zero then Scalar.zero else Scalar.exp (-dt / tau)

/-- The value of an element in one step: `xs` are the values of its inputs, `before` is its own
value one step before and `decay` what a filter keeps of that. -/
def BuiltinKind.row (size : Nat) (t decay : α) (before : List α) (xs : List (List α)) :
    BuiltinKind α → List α
  | stimulus signal => signal.valueAt t
  | transform matrices => Matrix.weightedSum size xs matrices
  | decode function _ => function (xs.headD [])
  | slice indices => indices.map fun i => (xs.headD []).getD i Scalar.zero
  | bundle => xs.flatten
  | filter =>
    List.zipWith (fun y x => decay * y + (Scalar.one - decay) * x) before (xs.headD [])
  | configure => xs.headD []

/-- The input and the integrand of the integrator that a placeholder belongs to. -/
def Graph.integratorOf (g : Graph α) (s : Node) : Option (Node × Option Node) :=
  g.records.toList.findSome? fun r =>
    match r.kind, r.inputs with
    | .integrate s' f, u :: _ => if s' = s then some (u, f) else none
    | _, _ => none

namespace Blueprint

variable (b : Blueprint α)

/-- The time constant of a filter, as its node's parameters resolve. -/
def timeConstant (i : Nat) : α :=
  (do
    let config ← b.graph.resolve ⟨i⟩ (Element.filter : Element α).configurable b.defaults
    config.scalar "synapse" : Except ParamError α).toOption.getD Scalar.zero

/-- All values one step before, zeros before the first step. -/
def earlier (before : Option (Nat → List α)) (i : Nat) : List α :=
  match before with
  | none => List.replicate (b.graph.sizeOf ⟨i⟩) Scalar.zero
  | some values => values i

/-- The value of the placeholder `s` in one step. -/
def integral (dt : α) (before : Option (Nat → List α)) (s : Node) : List α :=
  match before, b.graph.integratorOf s with
  | some values, some (u, f) =>
    let rate :=
      match f with
      | none => values u.index
      | some f => List.zipWith (· + ·) (values u.index) (values f.index)
    List.zipWith (fun x r => x + dt * r) (values s.index) rate
  | _, _ => b.earlier before s.index

/-- The value of a node at time `t`, given all values one step before. -/
def rowFrom (dt : α) (before : Option (Nat → List α)) (t : α) (i : Nat) : List α :=
  if hi : i < b.graph.records.size then
    match b.graph.records[i].kind with
    | .element _ =>
      (b.kind i).row b.graph.records[i].size t (BuiltinKind.kept dt (b.timeConstant i))
        (b.earlier before i)
        (b.graph.records[i].inputs.attach.map fun ⟨n, _⟩ => rowFrom dt before t n.index)
    | .state => b.integral dt before ⟨i⟩
    | .integrate s _ => b.integral dt before s
  else []
termination_by i
decreasing_by exact b.graph.backward i hi n (List.mem_append_left _ ‹_›)

/-- The values of all nodes in step `k + 1`, which is made at time `(k + 1) * dt`. -/
def stream (dt : α) : Nat → Nat → List α
  | 0 => b.rowFrom dt none (Scalar.ofNat 1 * dt)
  | k + 1 => b.rowFrom dt (some (stream dt k)) (Scalar.ofNat (k + 2) * dt)

/-- The values one step before step `k + 1`. -/
def before (dt : α) : Nat → Option (Nat → List α)
  | 0 => none
  | k + 1 => some (b.stream dt k)

/-- All decoded functions are computed as given. -/
def Direct : Prop :=
  ∀ (i : Nat) (r : NodeRecord α) (e : Element α) (function : VectorFunction α) (size : Nat)
    (config : ResolvedConfig α) (name : String) (type : NeuronType),
    b.graph.records[i]? = some r → r.kind = .element e → b.kind i = .decode function size →
      b.graph.resolve ⟨i⟩ e.configurable b.defaults = .ok config →
      config.text "neuron_type" = .ok name → NeuronType.ofText? name = .ok type → type = .direct

/-- Whether a node is another one or configures one that stands for it. -/
inductive StandsFor : Node → Node → Prop
  | refl (n : Node) : StandsFor n n
  | configure {n u m : Node} {r : NodeRecord α} {e : Element α} {us : List Node} :
    b.graph.record? n = some r → r.kind = .element e → b.kind n.index = .configure →
      r.inputs = u :: us → StandsFor u m → StandsFor n m

/-- No integrator's input or integrand stands for another integrator or its placeholder. -/
def Apart : Prop :=
  ∀ (i : Nat) (r p : NodeRecord α) (s : Node) (f : Option Node) (n m : Node),
    b.graph.records[i]? = some r → r.kind = .integrate s f → n ∈ r.inputs ++ f.toList →
      b.StandsFor n m → b.graph.record? m = some p →
        (∀ s' f', p.kind ≠ .integrate s' f') ∧ (p.kind = .state → m = s)

variable {b} {dt t : α} {before : Option (Nat → List α)} {i : Nat} {r : NodeRecord α}

theorem stream_eq (k : Nat) :
    b.stream dt k = b.rowFrom dt (b.before dt k) (Scalar.ofNat (k + 1) * dt) := by
  cases k <;> rfl

theorem rowFrom_element (hr : b.graph.records[i]? = some r) {e : Element α}
    (hk : r.kind = .element e) :
    b.rowFrom dt before t i =
      (b.kind i).row r.size t (BuiltinKind.kept dt (b.timeConstant i)) (b.earlier before i)
        (r.inputs.map fun n => b.rowFrom dt before t n.index) := by
  obtain ⟨hi, rfl⟩ := Array.getElem?_eq_some_iff.1 hr
  rw [rowFrom, dif_pos hi, hk]
  simp only [List.map_attach_eq_pmap, List.pmap_eq_map]

theorem rowFrom_state (hr : b.graph.records[i]? = some r) (hk : r.kind = .state) :
    b.rowFrom dt before t i = b.integral dt before ⟨i⟩ := by
  obtain ⟨hi, rfl⟩ := Array.getElem?_eq_some_iff.1 hr
  rw [rowFrom, dif_pos hi, hk]

theorem rowFrom_integrate (hr : b.graph.records[i]? = some r) {s : Node} {f : Option Node}
    (hk : r.kind = .integrate s f) : b.rowFrom dt before t i = b.integral dt before s := by
  obtain ⟨hi, rfl⟩ := Array.getElem?_eq_some_iff.1 hr
  rw [rowFrom, dif_pos hi, hk]

theorem stream_element {k : Nat} (hr : b.graph.records[i]? = some r) {e : Element α}
    (hk : r.kind = .element e) :
    b.stream dt k i =
      (b.kind i).row r.size (Scalar.ofNat (k + 1) * dt) (BuiltinKind.kept dt (b.timeConstant i))
        (b.earlier (b.before dt k) i) (r.inputs.map fun n => b.stream dt k n.index) := by
  rw [stream_eq, rowFrom_element hr hk]

theorem stream_state {k : Nat} (hr : b.graph.records[i]? = some r) (hk : r.kind = .state) :
    b.stream dt k i = b.integral dt (b.before dt k) ⟨i⟩ := by
  rw [stream_eq, rowFrom_state hr hk]

theorem stream_integrate {k : Nat} (hr : b.graph.records[i]? = some r) {s : Node}
    {f : Option Node} (hk : r.kind = .integrate s f) :
    b.stream dt k i = b.integral dt (b.before dt k) s := by
  rw [stream_eq, rowFrom_integrate hr hk]

/-- The integrator of a placeholder is found where there is one. -/
theorem integratorOf_eq (hr : b.graph.records[i]? = some r) {s u : Node} {f : Option Node}
    (hk : r.kind = .integrate s f) (hu : r.inputs = [u]) :
    b.graph.integratorOf s = some (u, f) := by
  unfold Graph.integratorOf
  cases hfound : b.graph.records.toList.findSome? _ with
  | none =>
    rw [List.findSome?_eq_none_iff] at hfound
    have := hfound r (Array.mem_toList_iff.2 (Array.mem_of_getElem? hr))
    simp [hk, hu] at this
  | some p =>
    obtain ⟨r', hm, hp⟩ := List.exists_of_findSome?_eq_some hfound
    obtain ⟨j, hj⟩ := List.mem_iff_getElem?.1 hm
    rw [Array.getElem?_toList] at hj
    split at hp
    · rename_i s' f' u' us hk' hus
      split at hp
      · rename_i hs
        subst hs
        obtain rfl := b.owner i j r r' _ _ _ hr hj hk hk'
        cases hr.symm.trans hj
        rw [hk] at hk'
        rw [hu] at hus
        cases hk'
        cases hus
        exact hp.symm
      · cases hp
    · cases hp

theorem integral_some (hr : b.graph.records[i]? = some r) {s u : Node} {f : Option Node}
    (hk : r.kind = .integrate s f) (hu : r.inputs = [u]) (values : Nat → List α) :
    b.integral dt (some values) s =
      List.zipWith (fun x r => x + dt * r) (values s.index)
        (f.elim (values u.index) fun f =>
          List.zipWith (· + ·) (values u.index) (values f.index)) := by
  unfold integral
  rw [integratorOf_eq hr hk hu]
  cases f <;> rfl

end Blueprint

end SignalGraph
