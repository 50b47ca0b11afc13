import SignalGraph.Proofs.Realize.Constructions

namespace SignalGraph

open Realize

variable {α : Type} {g g' : Graph α} {size : Nat}

namespace Graph

variable {terms : List (Node × α)} {ns : List Node}

/-- The size of a sum of nodes. -/
def width (g : Graph α) (ns : List Node) : Nat := (ns.map g.sizeOf).max?.getD 1

theorem width_mem (hne : ns ≠ []) : ∃ n ∈ ns, g.sizeOf n = g.width ns := by
  have hsizes : ns.map g.sizeOf ≠ [] := by simpa using hne
  obtain ⟨m, hm⟩ := Option.isSome_iff_exists.1 (List.isSome_max?_of_ne_nil hsizes)
  obtain ⟨n, hn, hsize⟩ := List.mem_map.1 (List.max?_mem hm)
  exact ⟨n, hn, by rw [hsize, width, hm, Option.getD_some]⟩

theorem le_width {n : Node} (hn : n ∈ ns) : g.sizeOf n ≤ g.width ns :=
  List.le_max?_getD_of_mem (List.mem_map_of_mem hn)

theorem height_eq_width (terms : List (Node × α)) :
    g.height terms = g.width (terms.map Prod.fst) := by
  rw [height, width, List.map_map]
  rfl

theorem height_mem (hne : terms ≠ []) : ∃ t ∈ terms, g.sizeOf t.1 = g.height terms := by
  obtain ⟨n, hn, hsize⟩ := width_mem (g := g) (by simpa using hne : terms.map Prod.fst ≠ [])
  obtain ⟨t, ht, rfl⟩ := List.mem_map.1 hn
  exact ⟨t, ht, by rw [hsize, height_eq_width]⟩

theorem le_height {t : Node × α} (ht : t ∈ terms) : g.sizeOf t.1 ≤ g.height terms := by
  rw [height_eq_width]
  exact le_width (List.mem_map_of_mem ht)

/-- The search for a term that has neither the size of a sum nor one value. -/
theorem find_misfit :
    (terms.find? fun t => g.sizeOf t.1 ≠ g.height terms && g.sizeOf t.1 ≠ 1) = none ↔
      ∀ t ∈ terms, g.sizeOf t.1 = g.height terms ∨ g.sizeOf t.1 = 1 := by
  rw [List.find?_eq_none]
  refine forall₂_congr fun t _ => ?_
  simp only [ne_eq, Bool.and_eq_true, decide_eq_true_eq, not_and_or, not_not]

end Graph

variable [Scalar α]

theorem Build.coefficientBlock_sizes {inputSize : Nat} (c : α)
    (h : inputSize = size ∨ inputSize = 1) :
    (coefficientBlock size inputSize c).nrows = size ∧
      (coefficientBlock size inputSize c).ncols = inputSize := by
  unfold coefficientBlock
  split
  · rename_i hsize
    exact ⟨rfl, hsize.symm⟩
  · rename_i hsize
    exact ⟨rfl, (h.resolve_left hsize).symm⟩

/-- The coefficients of a sum are as high as it, and as wide as its terms. -/
theorem Build.coefficients_fit {terms : List (Node × α)} (he : g.Extends g')
    (hin : ∀ t ∈ terms, t.1.index < g.size)
    (hfit : ∀ t ∈ terms, g.sizeOf t.1 = size ∨ g.sizeOf t.1 = 1) :
    List.Forall₂ (fun n m => m.nrows = size ∧ m.ncols = g'.sizeOf n) (terms.map Prod.fst)
      (g.coefficients size terms) := by
  rw [Graph.coefficients, List.forall₂_map_left_iff, List.forall₂_map_right_iff]
  refine List.forall₂_same.2 fun t ht => ?_
  rw [he.sizeOf (hin t ht)]
  exact coefficientBlock_sizes t.2 (hfit t ht)

/-- A vector is read back component by component. -/
theorem map_componentAt {xs : List α} (h : xs.length = size) :
    (List.range size).map (componentAt xs) = xs := by
  refine List.ext_getElem (by simp [h]) fun i _ hi => ?_
  rw [List.getElem_map, List.getElem_range, componentAt]
  split
  · obtain rfl : i = 0 := by omega
    rw [List.getD_eq_getElem?_getD, List.getElem?_eq_getElem hi, Option.getD_some]
  · rw [List.getD_eq_getElem?_getD, List.getElem?_eq_getElem hi, Option.getD_some]

/-- A vector that is put in place of `size` equal values. -/
theorem Build.stretch_eq {xs : List α} (h : xs.length = size ∨ xs.length = 1) :
    stretch size xs = (List.range size).map (componentAt xs) := by
  by_cases hone : xs.length = 1
  · obtain ⟨x, rfl⟩ := List.length_eq_one_iff.1 hone
    calc stretch size [x] = List.replicate (List.range size).length x := by
          rw [List.length_range]
          rfl
      _ = (List.range size).map (componentAt [x]) := List.map_const'.symm
  · rw [map_componentAt (h.resolve_right hone)]
    unfold stretch
    split
    · exact absurd rfl hone
    · rfl

theorem Build.splitProduct_append {xs ys : List α} (hx : xs.length = size ∨ xs.length = 1)
    (hy : ys.length = size ∨ ys.length = 1) :
    splitProduct xs.length size (xs ++ ys) =
      (List.range size).map fun i => componentAt xs i * componentAt ys i := by
  rw [splitProduct, List.take_left', List.drop_left', stretch_eq hx, stretch_eq hy,
    List.zipWith_map, List.zipWith_self]
  · rfl
  · rfl

namespace Build

/-- A sum refuses a term that has neither its size nor one value. -/
theorem affine_refuses (op : String) {terms : List (Node × α)} (c : α)
    (hfit : ¬∀ t ∈ terms, g.sizeOf t.1 = g.height terms ∨ g.sizeOf t.1 = 1) :
    ∃ t ∈ terms, g.sizeOf t.1 ≠ g.height terms ∧ g.sizeOf t.1 ≠ 1 ∧
      (affine op terms c).run g = .error (.sizeMismatch op (g.height terms) (g.sizeOf t.1)) := by
  rw [affine_run]
  split
  · rename_i t ht
    have hmisfit := List.find?_some ht
    simp only [ne_eq, Bool.and_eq_true, decide_eq_true_eq] at hmisfit
    exact ⟨t, List.mem_of_find?_eq_some ht, hmisfit.1, hmisfit.2, rfl⟩
  · rename_i hnone
    exact absurd (Graph.find_misfit.1 hnone) hfit

/-- What a product does: it refuses sizes that differ, unless one of them is one, and is built as a
function of the values behind each other otherwise. -/
theorem product_run (a b : Node) (g : Graph α) :
    (product a b).run g =
      if g.sizeOf a = g.sizeOf b ∨ g.sizeOf a = 1 ∨ g.sizeOf b = 1 then
        (do
          let joined ← bundle [a, b]
          decode joined (splitProduct (g.sizeOf a) (max (g.sizeOf a) (g.sizeOf b)))
            (some (max (g.sizeOf a) (g.sizeOf b))) .empty : Build α Node).run g
      else .error (.sizeMismatch "multiply" (g.sizeOf a) (g.sizeOf b)) := by
  have hfit : (g.sizeOf a ≠ g.sizeOf b && g.sizeOf a ≠ 1 && g.sizeOf b ≠ 1) =
      !decide (g.sizeOf a = g.sizeOf b ∨ g.sizeOf a = 1 ∨ g.sizeOf b = 1) := by
    simp [Bool.and_assoc]
  simp only [product, sizeOf_bind, hfit]
  by_cases h : g.sizeOf a = g.sizeOf b ∨ g.sizeOf a = 1 ∨ g.sizeOf b = 1
  · rw [decide_eq_true h, if_pos h]
    rfl
  · rw [decide_eq_false h, if_neg h]
    rfl

/-- A product of nodes whose sizes add up to zero as a word has nothing to be made of. -/
theorem product_overflows {a b : Node}
    (hfit : g.sizeOf a = g.sizeOf b ∨ g.sizeOf a = 1 ∨ g.sizeOf b = 1)
    (htotal : Shape.wordTotal [g.sizeOf a, g.sizeOf b] = 0) :
    (product a b).run g = .error (.shape (.invalid (.emptyOutput "bundle"))) := by
  have hout : (Element.bundle (α := α)).sizeOut ([a, b].map g.sizeOf) = .ok 0 :=
    congrArg Except.ok htotal
  have hbundle : (bundle [a, b]).run g =
      .error (.shape (.invalid (.emptyOutput (Element.bundle (α := α)).name))) := element_empty hout
  rw [product_run, if_pos hfit, StateT.run_bind, hbundle]
  rfl

variable [Scalar.Exact α]

theorem affine_makes (hg : g.Constructed) (op : String) {terms : List (Node × α)} (c : α)
    (hne : terms ≠ []) (hin : ∀ t ∈ terms, t.1.index < g.size)
    (hfit : ∀ t ∈ terms, g.sizeOf t.1 = g.height terms ∨ g.sizeOf t.1 = 1) :
    (affine op terms c).Makes g (g.height terms) fun g' n =>
      g'.Evaluates (∃ hs ms, · = .linear hs ms) n (terms.map Prod.fst) fun xs =>
        (List.range (g.height terms)).map fun i =>
          Scalar.sum (List.zipWith (fun t x => t.2 * componentAt x i) terms xs) + c := by
  have hsize : g.height terms ≠ 0 := by
    obtain ⟨t, ht, hsize⟩ := Graph.height_mem (g := g) hne
    exact hsize ▸ hg.positive (hin t ht)
  have hnodes : ∀ n ∈ terms.map Prod.fst, n.index < g.size := List.forall_mem_map.2 hin
  have hlengths : ∀ {g'}, g.Extends g' → ∀ xs : List (List α),
      xs.map List.length = (terms.map Prod.fst).map g'.sizeOf →
        xs.map List.length = terms.map fun t => g.sizeOf t.1 := by
    intro g' he xs hxs
    rw [hxs, he.sizes hnodes, List.map_map]
    rfl
  rw [Makes, Yields, affine_run, Graph.find_misfit.2 hfit]
  dsimp only
  split
  · rename_i hc
    refine (linear_makes hg hnodes (by simpa using hne) hsize
      (coefficients_fit (.refl g) hin hfit)).imp fun n g' _ he hn => ⟨hn.1, hn.2.1, ?_⟩
    refine hn.2.2.congr fun xs hxs => ?_
    rw [weightedSum_terms (hlengths he xs hxs) hfit, (Scalar.Exact.same_iff c Scalar.zero).1 hc]
    simp only [Scalar.Exact.add_zero]
  · refine (stimulus_makes hg (List.cons_ne_nil c [])).bind fun m g₁ hg₁ he₁ hm => ?_
    obtain ⟨hlt, hone, hm⟩ := hm
    have hall : ∀ n ∈ terms.map Prod.fst ++ [m], n.index < g₁.size := by
      intro n hn
      rcases List.mem_append.1 hn with hn | hn
      · exact Nat.lt_of_lt_of_le (hnodes n hn) he₁.size
      · exact List.mem_singleton.1 hn ▸ hlt
    have hoffset : List.Forall₂ (fun n m => m.nrows = g.height terms ∧ m.ncols = g₁.sizeOf n) [m]
        [Matrix.constantColumn (g.height terms) (Scalar.one : α)] :=
      .cons ⟨rfl, hone.symm⟩ .nil
    refine (linear_makes hg₁ hall (by simp) hsize
      (List.rel_append (coefficients_fit he₁ hin hfit) hoffset)).imp
        fun n g' _ he hn => ⟨hn.1, hn.2.1, ?_⟩
    refine (hn.2.2.absorb (hm.mono he hlt nofun)).congr fun xs hxs => ?_
    exact weightedSum_terms_constant (hlengths (he₁.trans he) xs hxs) hfit c

/-- A sum without a constant is one linear node over the nodes of its terms. -/
theorem affine_zero (hg : g.Constructed) (op : String) {terms : List (Node × α)} (hne : terms ≠ [])
    (hin : ∀ t ∈ terms, t.1.index < g.size)
    (hfit : ∀ t ∈ terms, g.sizeOf t.1 = g.height terms ∨ g.sizeOf t.1 = 1) :
    (affine op terms Scalar.zero).Yields g fun g' n =>
      (∃ ms, g'.record? n = some
        ⟨.element (.transform ms), terms.map Prod.fst, g.height terms, .empty, .empty⟩) ∧
      g'.Evaluates (∃ hs ms, · = .linear hs ms) n (terms.map Prod.fst) fun xs =>
        (List.range (g.height terms)).map fun i =>
          Scalar.sum (List.zipWith (fun t x => t.2 * componentAt x i) terms xs) := by
  obtain ⟨n, g', hrun, hg', he, -, hsize, heval⟩ := affine_makes hg op Scalar.zero hne hin hfit
  refine ⟨n, g', hrun, hg', he, ?_, heval.congr fun xs _ => by simp only [Scalar.Exact.add_zero]⟩
  have hzero := (Scalar.Exact.same_iff (Scalar.zero : α) Scalar.zero).2 rfl
  rw [affine_run, Graph.find_misfit.2 hfit] at hrun
  dsimp only at hrun
  rw [if_pos hzero] at hrun
  obtain ⟨size, -, rfl, hp⟩ := Graph.pushed_of_element hrun
  have hr := hp.record?_new
  obtain rfl : size = g.height terms := (Graph.sizeOf_record hr).symm.trans hsize
  exact ⟨_, hr⟩

theorem product_makes (hg : g.Constructed) {a b : Node} (ha : a.index < g.size)
    (hb : b.index < g.size) (hfit : g.sizeOf a = g.sizeOf b ∨ g.sizeOf a = 1 ∨ g.sizeOf b = 1)
    (hlt : g.sizeOf a + g.sizeOf b < wordCount) :
    (product a b).Makes g (max (g.sizeOf a) (g.sizeOf b)) fun g' n =>
      g'.Evaluates (∃ h function params, · = .nonlinear h function params) n [a, b] fun xs =>
        (List.range (max (g.sizeOf a) (g.sizeOf b))).map fun i =>
          componentAt (xs.getD 0 []) i * componentAt (xs.getD 1 []) i := by
  have hin : ∀ n ∈ [a, b], n.index < g.size := by simp [ha, hb]
  have hpa := hg.positive ha
  have hpb := hg.positive hb
  have htotal : Shape.total [g.sizeOf a, g.sizeOf b] < wordCount := hlt
  have hword : Shape.wordTotal [g.sizeOf a, g.sizeOf b] ≠ 0 := by
    rw [Shape.wordTotal_of_lt htotal, Shape.total, List.foldr_cons]
    omega
  rw [Makes, Yields, product_run, if_pos hfit]
  refine (bundle_makes hg hin (by simp) hword).bind fun m g₁ hg₁ he₁ hm => ?_
  refine (decode_makes hg₁ hm.1 (by omega) _ _).imp fun n g' _ he hn => ⟨hn.1, hn.2.1, ?_⟩
  have hjoined := (hm.2.2 htotal).mono he hm.1 fun n hn => Nat.lt_of_lt_of_le (hin n hn) he₁.size
  have hdecoded := hn.2.2.comp (by simp) (.cons hjoined .nil)
  refine (hdecoded.imp fun o ⟨h, params, ho⟩ => ⟨h, _, params, ho⟩).congr fun xs hxs => ?_
  rw [(he₁.trans he).sizes hin] at hxs
  obtain ⟨x, _, rfl, hx, hxs⟩ := List.map_eq_cons_iff.1 hxs
  obtain ⟨y, _, rfl, hy, hxs⟩ := List.map_eq_cons_iff.1 hxs
  obtain rfl := List.map_eq_nil_iff.1 hxs
  have hx' : x.length = max (g.sizeOf a) (g.sizeOf b) ∨ x.length = 1 := by
    rw [hx]
    omega
  have hy' : y.length = max (g.sizeOf a) (g.sizeOf b) ∨ y.length = 1 := by
    rw [hy]
    omega
  change splitProduct (g.sizeOf a) _ (x ++ (y ++ [])) = _
  rw [List.append_nil, ← hx]
  rw [← hx] at hx' hy'
  exact splitProduct_append hx' hy'

end Build

/-- Sums take the size of their largest term and products that of the larger factor, and both go by
components, a node of one value counting at each of them. A sum for whose square block there is room
is built unless a term has neither that size nor one value, and a product of sizes that add up to a
word under the same condition. -/
theorem componentwise_nodes [Scalar.Exact α] {g : Graph α} (hg : g.Constructed) :
    (∀ (op : String) (terms : List (Node × α)) (c : α), terms ≠ [] →
      (∀ t ∈ terms, t.1.index < g.size) →
      ∃ m, (∃ t ∈ terms, g.sizeOf t.1 = m) ∧ (∀ t ∈ terms, g.sizeOf t.1 ≤ m) ∧
        (m * m < entryLimit →
          if ∀ t ∈ terms, g.sizeOf t.1 = m ∨ g.sizeOf t.1 = 1 then
            (Build.affine op terms c).Makes g m fun g' n =>
              g'.Evaluates (∃ hs ms, · = .linear hs ms) n (terms.map Prod.fst) fun xs =>
                (List.range m).map fun i =>
                  Scalar.sum (List.zipWith (fun t x => t.2 * componentAt x i) terms xs) + c
          else ∃ t ∈ terms, g.sizeOf t.1 ≠ m ∧ g.sizeOf t.1 ≠ 1 ∧
            (Build.affine op terms c).run g = .error (.sizeMismatch op m (g.sizeOf t.1)))) ∧
    ∀ a b : Node, a.index < g.size → b.index < g.size → g.sizeOf a + g.sizeOf b < wordCount →
      if g.sizeOf a = g.sizeOf b ∨ g.sizeOf a = 1 ∨ g.sizeOf b = 1 then
        (Build.product a b).Makes g (max (g.sizeOf a) (g.sizeOf b)) fun g' n =>
          g'.Evaluates (∃ h function params, · = .nonlinear h function params) n [a, b]
            fun xs => (List.range (max (g.sizeOf a) (g.sizeOf b))).map fun i =>
              componentAt (xs.getD 0 []) i * componentAt (xs.getD 1 []) i
      else (Build.product a b).run g =
        .error (.sizeMismatch "multiply" (g.sizeOf a) (g.sizeOf b)) := by
  refine ⟨fun op terms c hne hin => ⟨g.height terms, Graph.height_mem hne, fun t => Graph.le_height,
    fun _ => ?_⟩, fun a b ha hb hlt => ?_⟩
  · split
    · exact Build.affine_makes hg op c hne hin ‹_›
    · exact Build.affine_refuses op c ‹_›
  · split
    · exact Build.product_makes hg ha hb ‹_› hlt
    · rw [Build.product_run, if_neg ‹_›]

/-- A source of three numbers and one of a single number. -/
def threeAndOne : Build ℚ Node := do
  discard <| Build.stimulus (.constant [1, 2, 3])
  Build.stimulus (.constant [5])

def threeAndOneGraph : Graph ℚ := threeAndOne.graph

theorem threeAndOneGraph_constructed : threeAndOneGraph.Constructed := by
  have hall : ∀ k : BuiltinKind ℚ, (fun _ => True) k.element := fun _ => trivial
  have hk : Build.Keeps (fun _ => True) threeAndOne :=
    ((Build.keeps_stimulus hall _).bind fun _ => Build.keeps_pure _).bind fun _ =>
      Build.keeps_stimulus hall _
  exact hk.constructed

/-- A node of the two sources, realized on an empty network, in the first step. -/
theorem threeAndOne_value {x : Build ℚ Node} {P : NetworkObject ℚ → Prop} {k : Handle}
    {f : List (List ℚ) → List ℚ} {out : List ℚ}
    (hx : x.Makes threeAndOneGraph 3 fun g n => g.Evaluates P n [⟨0⟩, ⟨1⟩] f)
    (hmade : ∃ n g' r, x.run threeAndOneGraph = .ok (n, g') ∧
      (make Target.network g' Defaults.standard n).run (.start (.empty none)) = (.ok k, r) ∧
      (fun s => s.step.1) <$> Backend.cpu.engine.build r.target 1 = .ok (.ok ()) ∧
      ∀ o ∈ r.target.objects, o.object.Direct) (hout : f [[1, 2, 3], [5]] = out) :
    ∃ n g' r v, x.run threeAndOneGraph = .ok (n, g') ∧ g'.sizeOf n = 3 ∧
      Usage Defaults.standard g' r ∧ r.built n = some k ∧ r.target.Observed v ∧
      v.of k.id = out := by
  obtain ⟨n, g', hrun, hg', he, -, hsize, heval⟩ := hx
  obtain ⟨_, _, r, hrun', hmake, hstep, hdirect⟩ := hmade
  cases hrun.symm.trans hrun'
  obtain ⟨husage, hbuilt, v, hv⟩ := hg'.observed hmake hstep
  have hthree : g'.Computes ⟨0⟩ [] fun _ => [1, 2, 3] := Graph.computes_constant (he.record? rfl)
  have hone : g'.Computes ⟨1⟩ [] fun _ => [5] := Graph.computes_constant (he.record? rfl)
  obtain ⟨o, _, hobject, -, -, hvalue⟩ := heval.comp nofun (.cons hthree (.cons hone .nil))
    _ g' r k (.refl g') husage hbuilt
  refine ⟨n, g', r, v, hrun, hsize, husage, hbuilt, hv, ((hvalue ?_ v hv).2).trans hout⟩
  exact hdirect _ (Array.mem_of_getElem? hobject)

open Build in
theorem threeAndOne_componentwise :
    threeAndOneGraph.Constructed ∧
    (∃ n g' r v, (affine "add" [(⟨0⟩, 2), (⟨1⟩, 1)] 1).run threeAndOneGraph = .ok (n, g') ∧
      g'.sizeOf n = 3 ∧ Usage Defaults.standard g' r ∧ r.built n = some ⟨3, 3⟩ ∧
      r.target.Observed v ∧ v.of 3 = [8, 10, 12]) ∧
    ∃ n g' r v, (product ⟨0⟩ ⟨1⟩).run threeAndOneGraph = .ok (n, g') ∧
      g'.sizeOf n = 3 ∧ Usage Defaults.standard g' r ∧ r.built n = some ⟨3, 3⟩ ∧
      r.target.Observed v ∧ v.of 3 = [5, 10, 15] := by
  have hg := threeAndOneGraph_constructed
  obtain ⟨hsums, hproducts⟩ := componentwise_nodes hg
  have hthree : threeAndOneGraph.sizeOf ⟨0⟩ = 3 := rfl
  have hone : threeAndOneGraph.sizeOf ⟨1⟩ = 1 := rfl
  refine ⟨hg, ?_, ?_⟩
  · obtain ⟨m, ⟨t, ht, hm⟩, hle, h⟩ := hsums "add" [(⟨0⟩, 2), (⟨1⟩, 1)] 1 nofun (by decide +kernel)
    have hlarge : 3 ≤ m := hle (⟨0⟩, 2) List.mem_cons_self
    obtain rfl : m = 3 := by
      simp only [List.mem_cons, List.not_mem_nil, or_false] at ht
      rcases ht with rfl | rfl
      · exact hm.symm
      · exact le_antisymm (hm ▸ (by decide +kernel)) hlarge
    have h := h (by decide)
    rw [if_pos (by decide +kernel)] at h
    exact threeAndOne_value (k := ⟨3, 3⟩) h ⟨_, _, _, rfl, Prod.ext (by decide +kernel) rfl,
      by decide +kernel⟩ (by decide +kernel)
  · have h := hproducts ⟨0⟩ ⟨1⟩ (by decide +kernel) (by decide +kernel) (by decide +kernel)
    rw [if_pos (by decide +kernel)] at h
    exact threeAndOne_value (k := ⟨3, 3⟩) h ⟨_, _, _, rfl, Prod.ext (by decide +kernel) rfl,
      by decide +kernel⟩ (by decide +kernel)

/-- The sizes are equal, and twice the size is zero as a word. -/
theorem halfWord_square_refused :
    halfWord.graph.Constructed ∧ halfWord.graph.sizeOf ⟨1⟩ = 2 ^ 63 ∧
      (Build.product ⟨1⟩ ⟨1⟩).run halfWord.graph =
        .error (.shape (.invalid (.emptyOutput "bundle"))) := by
  have hsize : halfWord.graph.sizeOf ⟨1⟩ = 2 ^ 63 := rfl
  refine ⟨halfWord_constructed, hsize, Build.product_overflows (.inl rfl) ?_⟩
  rw [hsize]
  rfl

end SignalGraph
