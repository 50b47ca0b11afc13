import SignalGraph.Proofs.Arithmetic.Rational
import SignalGraph.Proofs.Dispatch.Expressions
import SignalGraph.Proofs.Steady.Runs

namespace SignalGraph

variable {α : Type} [Scalar α] {g : Graph α} {value : Nat → List α}

/-- Nodes in place of numbers put them out in every run. -/
theorem Operand.Represents.reproduces [Scalar.Exact α] {x y : Operand α} {a : NDArray α}
    (h : x.Represents g value y) (hs : g.Steady value) (ha : y.toNumeric? = some a)
    (hx : x.isGraph = true) : ∃ f, x.toFold = .ok f ∧ f.shape = a.shape ∧ g.Reproduces f a := by
  obtain ⟨b, hb, hshape, hall⟩ := h.numbers
  cases ha.symm.trans hb
  obtain ⟨f, hf, hcells⟩ : ∃ f, x.toFold = .ok f ∧ x.cells = f.map .node := by
    cases x with
    | fold f => exact ⟨f, rfl, rfl⟩
    | node n => exact ⟨.single n, rfl, (NDArray.map_single _ n).symm⟩
    | scalar c => cases hx
    | array a => cases hx
  have hfs : f.shape = a.shape := by rw [← hshape, ← cells_shape, hcells, NDArray.shape_map]
  refine ⟨f, hf, hfs, hs.reproduces hfs (NDArray.forall₂_toList hfs ?_)⟩
  intro i hi
  have hstands := hall i hi
  rw [hcells, NDArray.entry_map (hfs ▸ hi)] at hstands
  exact hstands

namespace Expression

/-- Where an expression can be built, it can be computed. Without sources both are the same; else
what is built has the shape of what is computed and puts it out in every run, given room for the
matrices of its nodes, each of fewer than `entryLimit` entries. -/
theorem build_reproduces [Scalar.Exact α] {e : Expression α} {x : Operand α} {g : Graph α}
    (h : e.build.run .empty = .ok (x, g)) :
    ∃ y a, e.eager = .ok y ∧ y.toNumeric? = some a ∧ x.shape = y.shape ∧
      (e.hasSource = false → x = y) ∧
        (e.hasSource = true → ∃ f, x.toFold = .ok f ∧ f.shape = y.shape ∧ g.Reproduces f a) := by
  obtain ⟨value, y, hl, hy, hr, hsource⟩ :=
    e.build_represents (Graph.empty_steady fun _ => []) h
  obtain ⟨a, ha, hshape, -⟩ := hr.numbers
  have hys : y.shape = a.shape := by
    cases y <;> cases ha <;> rfl
  refine ⟨y, a, hy, ha, hshape.trans hys.symm, ?_, ?_⟩
  · rw [← hsource]
    exact hr.numeric
  · rw [← hsource, hys]
    exact hr.reproduces hl.steady ha

/-- The square of two sources times a third one, plus a column of numbers. -/
def mixed : Expression ℚ :=
  .binary .add
    (.unary .square (.binary .multiply (.array ⟨[2], #v[1, 2]⟩ true) (.scalar 3 true)))
    (.array ⟨[2, 1], #v[10, 20]⟩ false)

theorem mixed_reproduces :
    ∃ x g y a, mixed.build.run .empty = .ok (x, g) ∧ mixed.eager = .ok y ∧
      y.toNumeric? = some a ∧ a.toList = [19, 46, 29, 56] ∧ x.shape = y.shape ∧
        ∃ f, x.toFold = .ok f ∧ f.shape = y.shape ∧ g.Reproduces f a := by
  have hbuilt : (mixed.build.run .empty).isOk = true := by decide +kernel
  have hvalues : (mixed.eager.toOption.bind Operand.toNumeric?).map NDArray.toList =
      some [19, 46, 29, 56] := by decide +kernel
  cases hb : mixed.build.run .empty with
  | error e =>
    rw [hb] at hbuilt
    cases hbuilt
  | ok p =>
    obtain ⟨x, g⟩ := p
    obtain ⟨y, a, hy, ha, hshape, -, hrep⟩ := build_reproduces hb
    have hlist : a.toList = [19, 46, 29, 56] := by
      rw [hy] at hvalues
      simpa [Except.toOption, ha] using hvalues
    exact ⟨x, g, y, a, rfl, hy, ha, hlist, hshape, hrep rfl⟩

/-- Sources in an array without places. -/
def hollow : Expression ℚ := .array ⟨[0, 4611686018427387904], ⟨#[], rfl⟩⟩ true

/-- Two steps of one second. -/
def twoSeconds : RunOptions ℚ := ⟨2, 1, .cpu, .trailing⟩

theorem hollow_refused :
    ∃ x g f y, hollow.build.run .empty = .ok (x, g) ∧ hollow.eager = .ok y ∧ x.toFold = .ok f ∧
      twoSeconds.check = .ok () ∧ ∀ out, Run.run g Defaults.standard f twoSeconds ≠ .ok out := by
  have hlist : (NDArray.toList ⟨[0, 4611686018427387904], ⟨#[], rfl⟩⟩ |>.mapM fun c : ℚ =>
      Build.stimulus (.constant [c])).run .empty = .ok ([], .empty) := rfl
  rw [← NDArray.toList_mapM] at hlist
  obtain ⟨ns, hns, -⟩ := Build.map_ok.1 hlist
  have hb : hollow.build.run .empty = .ok (.fold ns, .empty) := Build.map_ok.2 ⟨ns, hns, rfl⟩
  obtain ⟨value, y, hl, hy, hr, -⟩ := hollow.build_represents (Graph.empty_steady fun _ => []) hb
  cases Except.ok.inj hy
  obtain ⟨f, hf, -, hrep⟩ := hr.reproduces hl.steady rfl rfl
  have hcheck : twoSeconds.check = .ok () :=
    RunOptions.check_eq_ok.2 ⟨⟨by decide +kernel, rfl⟩, by decide +kernel, rfl⟩
  refine ⟨_, _, f, _, hb, rfl, hf, hcheck, ?_⟩
  intro out hout
  rw [hrep.overflow twoSeconds hcheck (by decide +kernel)] at hout
  cases hout

end Expression

end SignalGraph
