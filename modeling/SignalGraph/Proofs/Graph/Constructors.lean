import SignalGraph.Proofs.Graph.Steady

namespace SignalGraph

open Build

variable {α : Type} [Scalar α] {g g' : Graph α} {value : Nat → List α} {n : Node}

omit [Scalar α] in
theorem Element.checkMatrices_eq_ok {rows : Nat} {ps : List (Matrix α × Nat)} {u : Unit} :
    checkMatrices rows ps = .ok u ↔ ∀ p ∈ ps, p.1.ncols = p.2 ∧ p.1.nrows = rows := by
  induction ps with
  | nil => simp [checkMatrices]
  | cons p ps ih =>
    obtain ⟨m, size⟩ := p
    simp only [checkMatrices, guard_eq_ok, not_not, ih, List.forall_mem_cons, and_assoc]

theorem Build.stimulus_steady {xs : List α} (hs : g.Steady value)
    (hb : (stimulus (.constant xs)).run g = .ok (n, g')) :
    ∃ value', g.Later value g' value' ∧ g'.Carries value' n xs := by
  obtain ⟨size, hsize, hne, -, rfl, hg⟩ := element_ok.1 hb
  cases hsize
  have hxs : xs ≠ [] := fun h => hne (by simp [h, Signal.size])
  exact hs.push (.stimulus hxs) (by simp) hg

omit [Scalar α] in
/-- The height of a transform, whose matrices fit the inputs. -/
theorem Element.transform_sizeOut {ms : List (Matrix α)} {sizes : List Nat} {size : Nat} :
    (transform ms).sizeOut sizes = .ok size ↔
      sizes.length = ms.length ∧ sizes ≠ [] ∧ size = Network.outputCount ms ∧
        ∀ p ∈ ms.zip sizes, p.1.ncols = p.2 ∧ p.1.nrows = size := by
  simp only [transform, guard_eq_ok, bind_eq_ok, pure_eq_ok, checkMatrices_eq_ok, Bool.or_eq_true,
    not_or, decide_eq_true_eq, not_not]
  constructor
  · rintro ⟨⟨hl, hne⟩, -, hall, rfl⟩
    exact ⟨hl, by simpa using hne, rfl, hall⟩
  · rintro ⟨hl, hne, rfl, hall⟩
    exact ⟨⟨hl, by simpa using hne⟩, ⟨⟩, hall, rfl⟩

theorem Build.linear_steady {ns : List Node} {ms : List (Matrix α)} (hs : g.Steady value)
    (hb : (linear ns ms).run g = .ok (n, g')) :
    ∃ value', g.Later value g' value' ∧ g'.Carries value' n
      (Matrix.weightedSum (Network.outputCount ms) (ns.map fun n => value n.index) ms) := by
  obtain ⟨size, hsize, hne, hin, rfl, hg⟩ := element_ok.1 hb
  obtain ⟨hl, hns, rfl, hall⟩ := Element.transform_sizeOut.1 hsize
  rw [List.length_map] at hl
  refine hs.push (.transform ?_ hl hne ?_ rfl) hin hg
  · rintro rfl
    exact hns rfl
  · intro p hp
    have hm : (p.2, g.sizeOf p.1) ∈ ms.zip (ns.map g.sizeOf) := by
      rw [List.zip_map_right]
      refine List.mem_map.2 ⟨(p.2, p.1), ?_, rfl⟩
      rw [List.mem_iff_getElem?] at hp ⊢
      obtain ⟨i, hi⟩ := hp
      refine ⟨i, ?_⟩
      rw [List.getElem?_zip_eq_some] at hi ⊢
      exact ⟨hi.2, hi.1⟩
    obtain ⟨hc, hr⟩ := hall _ hm
    exact ⟨hr, hc.trans (hs.sizeOf (hin p.1 (List.of_mem_zip hp).1))⟩

theorem Build.decode_steady {m : Node} {f : VectorFunction α} {size : Option Nat} {out : List α}
    (hs : g.Steady value) (hm : g.Carries value m out) (hl : (f out).length = size.getD out.length)
    (hb : (decode m f size .empty).run g = .ok (n, g')) :
    ∃ value', g.Later value g' value' ∧ g'.Carries value' n (f out) := by
  obtain ⟨hin, hout⟩ := hm
  have helement : ∀ k, (f out).length = k → (element (.decode f k) [m] .empty).run g = .ok (n, g') →
      ∃ value', g.Later value g' value' ∧ g'.Carries value' n (f out) := by
    intro k hk he
    obtain ⟨size, hsize, hne, hin, rfl, hg⟩ := element_ok.1 he
    simp only [Element.decode, bind_eq_ok, pure_eq_ok] at hsize
    obtain ⟨_, -, rfl⟩ := hsize
    exact hs.push (.decode hne hk (by rw [hout])) hin hg
  cases size with
  | some k => exact helement k hl hb
  | none =>
    simp only [decode, bind_ok, sizeOf_ok] at hb
    obtain ⟨_, _, ⟨rfl, rfl⟩, hb⟩ := hb
    split at hb
    · obtain ⟨_, _, hx, -⟩ := bind_ok.1 hb
      exact absurd hx throw_ok
    · rw [hs.sizeOf hin, hout] at hb
      exact helement _ hl hb

theorem Build.bundle_steady {ns : List Node} (hs : g.Steady value)
    (hlt : (ns.map fun n => (value n.index).length).sum < wordCount)
    (hb : (bundle ns).run g = .ok (n, g')) :
    ∃ value', g.Later value g' value' ∧
      g'.Carries value' n (ns.map fun n => value n.index).flatten := by
  obtain ⟨size, hsize, hne, hin, rfl, hg⟩ := element_ok.1 hb
  have hsizes : ns.map g.sizeOf = ns.map fun n => (value n.index).length :=
    List.map_congr_left fun m hm => hs.sizeOf (hin m hm)
  simp only [Element.bundle, hsizes] at hsize
  split at hsize
  · cases hsize
  · rename_i hns
    have hsum : size = (ns.map fun n => (value n.index).length).sum :=
      (Except.ok.inj hsize).symm.trans (Shape.wordTotal_of_lt hlt)
    refine hs.push (.bundle ?_ hne (hsum ▸ hlt) ?_ rfl) hin hg
    · rintro rfl
      exact hns rfl
    · rw [List.length_flatten, List.map_map, hsum]
      rfl

/-- The component of a vector at a place; a vector of one value has it at every place. -/
def componentAt (x : List α) (i : Nat) : α :=
  x.getD (if x.length = 1 then 0 else i) Scalar.zero

theorem Matrix.coefficientBlock_apply [Scalar.Exact α] {size : Nat} {x : List α} (c : α)
    (hx : x.length = size ∨ x.length = 1) :
    (coefficientBlock size x.length c).apply x =
      (List.range size).map fun i => c * componentAt x i := by
  unfold coefficientBlock
  split
  · rename_i hsize
    subst hsize
    rw [scale_identity_apply]
    refine List.map_congr_left fun i hi => ?_
    have hi : i < x.length := List.mem_range.1 hi
    by_cases hone : x.length = 1
    · obtain rfl : i = 0 := by omega
      simp only [componentAt, ite_self]
    · simp only [componentAt, hone, if_false]
  · obtain ⟨y, rfl⟩ := List.length_eq_one_iff.1 (hx.resolve_left ‹_›)
    exact constantColumn_apply size c y

omit [Scalar α] in
theorem Build.terms_ok {terms : List (Node × α)} {sized : List (Node × α × Nat)} {g g' : Graph α} :
    (terms.mapM fun (n, c) => return (n, c, ← sizeOf n) : Build α (List (Node × α × Nat))).run g =
        .ok (sized, g') ↔ terms.map (fun t => (t.1, t.2, g.sizeOf t.1)) = sized ∧ g = g' := by
  induction terms generalizing sized g g' with
  | nil => simp
  | cons t terms ih =>
    simp only [List.mapM_cons, bind_ok, pure_ok, sizeOf_ok, ih, List.map_cons]
    constructor
    · rintro ⟨_, _, ⟨_, _, ⟨rfl, rfl⟩, rfl, rfl⟩, _, _, ⟨rfl, rfl⟩, rfl, rfl⟩
      exact ⟨rfl, rfl⟩
    · rintro ⟨rfl, rfl⟩
      exact ⟨_, _, ⟨_, _, ⟨rfl, rfl⟩, rfl, rfl⟩, _, _, ⟨rfl, rfl⟩, rfl, rfl⟩

/-- The size of a sum, which is that of its largest term. -/
def Graph.height (g : Graph α) (terms : List (Node × α)) : Nat :=
  (terms.map fun t => g.sizeOf t.1).max?.getD 1

/-- The coefficients of the terms of a sum as matrices. -/
def Graph.coefficients (g : Graph α) (size : Nat) (terms : List (Node × α)) : List (Matrix α) :=
  terms.map fun t => coefficientBlock size (g.sizeOf t.1) t.2

/-- What a sum does: it refuses a term that has neither its size nor one value, and is built as a
linear node otherwise, a constant other than zero being one more input. -/
theorem Build.affine_run (op : String) (terms : List (Node × α)) (c : α) (g : Graph α) :
    (affine op terms c).run g =
      match terms.find? fun t => g.sizeOf t.1 ≠ g.height terms && g.sizeOf t.1 ≠ 1 with
      | some t => .error (.sizeMismatch op (g.height terms) (g.sizeOf t.1))
      | none =>
        if Scalar.same c Scalar.zero then
          (linear (terms.map Prod.fst) (g.coefficients (g.height terms) terms)).run g
        else (do
          let offset ← stimulus (.constant [c])
          linear (terms.map Prod.fst ++ [offset])
            (g.coefficients (g.height terms) terms ++
              [.constantColumn (g.height terms) Scalar.one]) : Build α Node).run g := by
  have hterms := (@terms_ok α terms _ g g).2 ⟨rfl, rfl⟩
  rw [affine, StateT.run_bind, hterms]
  simp only [bind, Except.bind, List.map_map, List.find?_map, Function.comp_def]
  rw [← Graph.height]
  cases hfind : terms.find? fun t => g.sizeOf t.1 ≠ g.height terms && g.sizeOf t.1 ≠ 1 with
  | some t => rfl
  | none =>
    simp only [Option.map_none]
    split <;> rfl

section

variable [Scalar.Exact α] {size : Nat} {terms : List (Node × α)} {xs : List (List α)}
  (hxs : xs.map List.length = terms.map fun t => g.sizeOf t.1)
  (hfit : ∀ t ∈ terms, g.sizeOf t.1 = size ∨ g.sizeOf t.1 = 1)

include hxs hfit

/-- The terms of a sum, each times its coefficient. -/
theorem coefficients_apply :
    List.Forall₂ (fun p y => p.2.apply p.1 = (List.range size).map y)
      (xs.zip (g.coefficients size terms))
      (List.zipWith (fun t x i => t.2 * componentAt x i) terms xs) := by
  induction terms generalizing xs with
  | nil =>
    obtain rfl := List.map_eq_nil_iff.1 hxs
    exact .nil
  | cons t terms ih =>
    obtain ⟨x, xs, rfl, hx, hrest⟩ := List.map_eq_cons_iff.1 hxs
    refine .cons ?_ (ih hrest fun t ht => hfit t (List.mem_cons_of_mem _ ht))
    have ht : x.length = size ∨ x.length = 1 := hx ▸ hfit t List.mem_cons_self
    have hblock : coefficientBlock size (g.sizeOf t.1) t.2 = coefficientBlock size x.length t.2 :=
      congrArg (coefficientBlock size · t.2) hx.symm
    simp only [hblock]
    exact Matrix.coefficientBlock_apply t.2 ht

theorem weightedSum_terms :
    Matrix.weightedSum size xs (g.coefficients size terms) =
      (List.range size).map fun i =>
        Scalar.sum (List.zipWith (fun t x => t.2 * componentAt x i) terms xs) := by
  rw [Matrix.weightedSum_components (coefficients_apply hxs hfit)]
  simp only [List.map_zipWith]

/-- The constant of a sum is the value of one more input. -/
theorem weightedSum_terms_constant (c : α) :
    Matrix.weightedSum size (xs ++ [[c]])
        (g.coefficients size terms ++ [.constantColumn size Scalar.one]) =
      (List.range size).map fun i =>
        Scalar.sum (List.zipWith (fun t x => t.2 * componentAt x i) terms xs) + c := by
  have hoffset : List.Forall₂ (fun p y => p.2.apply p.1 = (List.range size).map y)
      [([c], Matrix.constantColumn size Scalar.one)] [fun _ => c] := by
    refine .cons ?_ .nil
    simp only [Matrix.constantColumn_apply, Scalar.Exact.one_mul]
  have hlength : xs.length = (g.coefficients size terms).length := by
    have := congrArg List.length hxs
    simpa only [Graph.coefficients, List.length_map] using this
  have hzip : (xs ++ [[c]]).zip
      (g.coefficients size terms ++ [Matrix.constantColumn size Scalar.one]) =
      xs.zip (g.coefficients size terms) ++ [([c], Matrix.constantColumn size Scalar.one)] :=
    List.zip_append hlength
  have hall : List.Forall₂ (fun p y => p.2.apply p.1 = (List.range size).map y)
      ((xs ++ [[c]]).zip (g.coefficients size terms ++ [Matrix.constantColumn size Scalar.one]))
      (List.zipWith (fun t x i => t.2 * componentAt x i) terms xs ++ [fun _ => c]) := by
    rw [hzip]
    exact List.rel_append (coefficients_apply hxs hfit) hoffset
  rw [Matrix.weightedSum_components hall]
  refine List.map_congr_left fun i _ => ?_
  rw [List.map_append, List.map_zipWith, Scalar.sum, List.foldl_append]
  rfl

end

omit [Scalar α] in
/-- The size of a sum of single numbers. -/
theorem Graph.height_unit {terms : List (Node × α)} (hne : terms ≠ [])
    (hsizes : ∀ t ∈ terms, g.sizeOf t.1 = 1) : g.height terms = 1 := by
  have hones : (terms.map fun t => g.sizeOf t.1) = List.replicate terms.length 1 := by
    rw [← List.map_const']
    exact List.map_congr_left hsizes
  rw [height, hones, List.max?_replicate_of_pos (List.length_pos_iff.2 hne)]
  rfl

theorem Build.affine_steady [Scalar.Exact α] {op : String} {terms : List (Node × α)} {xs : List α}
    {c : α} {g g' : Graph α} {value : Nat → List α} {n : Node} (hs : g.Steady value)
    (hne : terms ≠ []) (ht : List.Forall₂ (fun t x => g.Carries value t.1 [x]) terms xs)
    (hb : (affine op terms c).run g = .ok (n, g')) :
    ∃ value', g.Later value g' value' ∧ g'.Carries value' n
      [Scalar.sum (List.zipWith (fun t x => t.2 * x) terms xs) + c] := by
  have hsizes : ∀ t ∈ terms, g.sizeOf t.1 = 1 := by
    intro t hm
    obtain ⟨x, hx⟩ := forall₂_mem_left ht hm
    rw [hs.sizeOf hx.1, hx.2]
    rfl
  have hfit : ∀ t ∈ terms, g.sizeOf t.1 = 1 ∨ g.sizeOf t.1 = 1 := fun t hm => .inl (hsizes t hm)
  have hlengths : (xs.map fun x => [x]).map List.length = terms.map fun t => g.sizeOf t.1 := by
    rw [List.map_map]
    exact (forall₂_map_eq (forall₂_imp_mem ht fun t hm x _ => hsizes t hm)).symm
  have hsums : ∀ i, List.zipWith (fun t x => t.2 * componentAt x i) terms (xs.map fun x => [x]) =
      List.zipWith (fun t x => t.2 * x) terms xs := by
    intro i
    rw [List.zipWith_map_right]
    rfl
  have hcount : ∀ ms : List (Matrix α), Network.outputCount (g.coefficients 1 terms ++ ms) = 1 := by
    intro ms
    obtain ⟨t, ts, rfl⟩ := List.exists_cons_of_ne_nil hne
    simp only [Graph.coefficients, List.map_cons, hsizes t List.mem_cons_self]
    rfl
  rw [affine_run, Graph.height_unit hne hsizes] at hb
  split at hb
  · cases hb
  · split at hb
    · rename_i hc
      obtain ⟨value', hl, hcar⟩ := linear_steady hs hb
      have hvalues : (terms.map Prod.fst).map (fun n => value n.index) = xs.map fun x => [x] := by
        rw [List.map_map]
        exact forall₂_map_eq (ht.imp fun t x hx => hx.2)
      have hn := hcount []
      rw [List.append_nil] at hn
      rw [hn, hvalues, weightedSum_terms hlengths hfit] at hcar
      rw [(Scalar.Exact.same_iff c Scalar.zero).1 hc, Scalar.Exact.add_zero]
      exact ⟨value', hl, hsums 0 ▸ hcar⟩
    · obtain ⟨m, g₁, hm, hb⟩ := bind_ok.1 hb
      obtain ⟨value₁, hl₁, hc⟩ := stimulus_steady hs hm
      obtain ⟨value', hl, hcar⟩ := linear_steady hl₁.steady hb
      have hvalues : (terms.map Prod.fst ++ [m]).map (fun n => value₁ n.index) =
          (xs.map fun x => [x]) ++ [[c]] := by
        rw [List.map_append, List.map_map, List.map_singleton, hc.2]
        exact congrArg (· ++ [[c]]) (forall₂_map_eq (ht.imp fun t x hx => (hx.later hl₁).2))
      rw [hcount, hvalues, weightedSum_terms_constant hlengths hfit] at hcar
      exact ⟨value', hl₁.trans hl, hsums 0 ▸ hcar⟩

/-- The product of two single numbers. -/
theorem Build.product_steady {a b n : Node} {x y : α} {g g' : Graph α} {value : Nat → List α}
    (hs : g.Steady value) (ha : g.Carries value a [x]) (hb : g.Carries value b [y])
    (hp : (product a b).run g = .ok (n, g')) :
    ∃ value', g.Later value g' value' ∧ g'.Carries value' n [x * y] := by
  have hsa : g.sizeOf a = 1 := by rw [hs.sizeOf ha.1, ha.2]; rfl
  have hsb : g.sizeOf b = 1 := by rw [hs.sizeOf hb.1, hb.2]; rfl
  simp only [product, bind_ok, sizeOf_ok] at hp
  obtain ⟨_, _, ⟨rfl, rfl⟩, _, _, ⟨rfl, rfl⟩, hp⟩ := hp
  rw [hsa, hsb, if_neg (by decide)] at hp
  obtain ⟨m, g₁, hm, hp⟩ := bind_ok.1 hp
  have hlt : ([a, b].map fun n => (value n.index).length).sum < wordCount := by
    simp only [List.map_cons, List.map_nil, ha.2, hb.2, List.length_singleton]
    decide
  obtain ⟨value₁, hl₁, hc⟩ := bundle_steady hs hlt hm
  have hjoined : ([a, b].map fun n => value n.index).flatten = [x, y] := by
    simp [ha.2, hb.2]
  rw [hjoined] at hc
  obtain ⟨value', hl, hcar⟩ := decode_steady hl₁.steady hc rfl hp
  exact ⟨value', hl₁.trans hl, hcar⟩

end SignalGraph
