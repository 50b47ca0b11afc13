import SignalGraph.Proofs.Arrays.Lanes
import SignalGraph.Proofs.Dispatch.Axes
import SignalGraph.Proofs.Realize.Totals

namespace SignalGraph

open Build Realize

variable {α : Type}

theorem map_pair {β γ : Type} (xs : List β) (c : γ) :
    xs.map (·, c) = xs.zip (List.replicate xs.length c) := by
  induction xs with
  | nil => rfl
  | cons x xs ih =>
    rw [List.map_cons, ih, List.length_cons, List.replicate_succ, List.zip_cons_cons]

namespace Graph

/-- An operation is refused for two sizes of nodes that do not go together. -/
def Mismatch (g : Graph α) (op : String) (ns : List Node) (e : GraphError) : Prop :=
  ∃ a b, g.Clash ns a b ∧ e = .sizeMismatch op a b

theorem Mismatch.mono {g g' : Graph α} {op : String} {ns ms : List Node} {e : GraphError}
    (h : g.Mismatch op ns e)
    (hsizes : ∀ c, 1 < c → c ∈ ns.map g.sizeOf → c ∈ ms.map g'.sizeOf) : g'.Mismatch op ms e := by
  obtain ⟨a, b, hclash, he⟩ := h
  exact ⟨a, b, hclash.mono hsizes, he⟩

/-- A refusal in a later graph is one for the sizes of before. -/
theorem Mismatch.earlier {g g' : Graph α} {op : String} {ns : List Node} {e : GraphError}
    (h : g'.Mismatch op ns e) (he : g.Extends g') (hns : ∀ n ∈ ns, n.index < g.size) :
    g.Mismatch op ns e :=
  h.mono fun _ _ hc => he.sizes hns ▸ hc

variable [Scalar α]

/-- The nodes of an array `r` are over the lanes of another one along an axis, which `r` lacks. -/
structure OverLanes (g : Graph α) (f : Fold) (axis : Nat) (total : List α → α) (r : Fold) :
    Prop where
  shape : r.shape = f.shape.eraseIdx axis
  entry : ∀ i, Shape.Within i r.shape → g.Reduces (f.lane axis i) total (r.entry i)

/-- A reduction along an axis is refused for a lane of mixed sizes, and answers with a node over
each lane otherwise. -/
structure ReducesLanes (g : Graph α) (f : Fold) (axis : Nat) (op : String) (total : List α → α)
    (x : Build α (Operand α)) : Prop where
  mixed : (∃ i, Shape.Within i (f.shape.eraseIdx axis) ∧ g.Mixes (f.lane axis i)) →
    x.Refuses g fun e => ∃ i, Shape.Within i (f.shape.eraseIdx axis) ∧
      g.Mismatch op (f.lane axis i) e
  reduced : (∀ i, Shape.Within i (f.shape.eraseIdx axis) → ¬g.Mixes (f.lane axis i)) →
    x.Yields g fun g' y => ∃ r : Fold, y = .fold r ∧ g'.OverLanes f axis total r

/-- A reduction of all nodes is refused for mixed sizes, and answers with one node over them
otherwise. -/
structure ReducesAll (g : Graph α) (ns : List Node) (op : String) (total : List α → α)
    (x : Build α (Operand α)) : Prop where
  mixed : g.Mixes ns → x.Refuses g (g.Mismatch op ns)
  reduced : ¬g.Mixes ns → x.Yields g fun g' y => ∃ n, y = .node n ∧ g'.Reduces ns total n

/-- A reduction takes axes of the array, which may be counted from the end, and no others. Without
an axis it goes over all nodes. -/
structure ReducesFold (g : Graph α) (f : Fold) (op : String) (total : List α → α)
    (x : Option Int → Build α (Operand α)) : Prop where
  outside : ∀ a : Int, a < -(f.rank : Int) ∨ (f.rank : Int) ≤ a →
    (x (some a)).run g = .error (.shape (.axisOutOfBounds a.natAbs f.rank))
  along : ∀ axis < f.rank, ∀ a : Int, (a = axis ∨ a = (axis : Int) - f.rank) →
    g.ReducesLanes f axis op total (x (some a))
  whole : g.ReducesAll f.toList op total (x none)

/-- A weighted sum goes along the last axis, which has to be as long as there are weights. -/
structure Dots (g : Graph α) (f : Fold) (weights : List α) (x : Build α (Operand α)) : Prop where
  single : f.rank = 0 → x.run g = .error (.badArguments "dot" .noAxis)
  misfit : ∀ last, f.rank = last + 1 → weights.length ≠ f.axisLength last →
    x.run g = .error (.sizeMismatch "dot" (f.axisLength last) weights.length)
  along : ∀ last, f.rank = last + 1 → weights.length = f.axisLength last →
    g.ReducesLanes f last "dot" (fun ys => Scalar.sum (List.zipWith (· * ·) weights ys)) x

end Graph

variable [Scalar α]

namespace Builtin

variable {f : Fold} {axis : Nat} {op : String} {r : Reduction α} {lane : List Node} {g : Graph α}

namespace Reduction

/-- The coefficients of the nodes of a lane. -/
def weights : Reduction α → Nat → List α
  | sum, count => List.replicate count Scalar.one
  | mean, count => List.replicate count (Scalar.one / Scalar.ofNat count)
  | weighted weights, _ => weights

/-- What a reduction makes of numbers. -/
def total : Reduction α → List α → α
  | sum, ys => Scalar.sum ys
  | mean, ys => Scalar.sum ys / Scalar.ofNat ys.length
  | weighted weights, ys => Scalar.sum (List.zipWith (· * ·) weights ys)

theorem node_eq (hne : lane ≠ []) (hfit : (r.weights lane.length).length = lane.length) :
    r.node op lane = affine op (lane.zip (r.weights lane.length)) Scalar.zero := by
  have hempty : lane.isEmpty = false := by simpa using hne
  cases r with
  | sum => simp [node, hempty, weights, map_pair]
  | mean => simp [node, hempty, weights, map_pair]
  | weighted weights =>
    have hfit : weights.length = lane.length := hfit
    simp [node, hempty, Reduction.weights, hfit]

/-- A lane that there are not as many weights for is refused. -/
theorem node_misfit {weights : List α} (hne : lane ≠ []) (hfit : weights.length ≠ lane.length) :
    ((weighted weights).node op lane).run g =
      .error (.sizeMismatch op lane.length weights.length) := by
  have hempty : lane.isEmpty = false := by simpa using hne
  simp only [node, hempty, Bool.false_eq_true, if_false, ne_eq, hfit, not_false_eq_true, if_true]
  rfl

/-- A lane of mixed sizes is refused. -/
theorem node_refuses (hg : g.Constructed) (hlane : ∀ n ∈ lane, n.index < g.size)
    (hfit : (r.weights lane.length).length = lane.length) (hmixes : g.Mixes lane) :
    (r.node op lane).Refuses g (g.Mismatch op lane) := by
  have hpos : ∀ n ∈ lane, g.sizeOf n ≠ 0 := fun n hn => hg.positive (hlane n hn)
  have hterms : (lane.zip (r.weights lane.length)).map Prod.fst = lane :=
    List.map_fst_zip (Nat.le_of_eq hfit.symm)
  have hwidth := Graph.height_eq_width (g := g) (lane.zip (r.weights lane.length))
  rw [hterms] at hwidth
  have hmisfit : ¬∀ t ∈ lane.zip (r.weights lane.length),
      g.sizeOf t.1 = g.height (lane.zip (r.weights lane.length)) ∨ g.sizeOf t.1 = 1 := by
    rw [hwidth, ← List.forall_mem_map (P := fun n => g.sizeOf n = g.width lane ∨ g.sizeOf n = 1),
      hterms, ← Graph.fits_iff hpos]
    exact not_not.2 hmixes
  obtain ⟨t, ht, hother, hone, hrun⟩ := affine_refuses op Scalar.zero hmisfit
  obtain ⟨m, hm, hsize⟩ := Graph.width_mem (g := g) hmixes.ne_nil
  have ht : t.1 ∈ lane := (List.of_mem_zip ht).1
  have hle := Graph.le_width (g := g) ht
  have hpos := hpos t.1 ht
  rw [hwidth] at hother hrun
  rw [node_eq hmixes.ne_nil hfit]
  exact ⟨_, ⟨_, _, ⟨hsize ▸ List.mem_map_of_mem hm, List.mem_map_of_mem ht, by omega, by omega,
    Ne.symm hother⟩, rfl⟩, hrun⟩

variable [Scalar.Exact α]

theorem total_eq {ys : List α}
    (hcount : r = mean → (Scalar.ofNat ys.length : α) ≠ Scalar.zero) :
    Scalar.sum (List.zipWith (· * ·) (r.weights ys.length) ys) = r.total ys := by
  cases r with
  | sum => rw [weights, Scalar.sum_replicate_mul, Scalar.Exact.one_mul, total]
  | mean =>
    rw [weights, Scalar.sum_replicate_mul, Scalar.Exact.mul_comm,
      Scalar.Exact.mul_one_div _ (hcount rfl), total]
  | weighted weights => rfl

/-- A lane that is not mixed is reduced to one node over it. -/
theorem node_reduces (hg : g.Constructed) (hlane : ∀ n ∈ lane, n.index < g.size) (hne : lane ≠ [])
    (hcount : r = mean → (Scalar.ofNat lane.length : α) ≠ Scalar.zero)
    (hfit : (r.weights lane.length).length = lane.length) (hmixes : ¬g.Mixes lane) :
    (r.node op lane).Yields g fun g' n => g'.Reduces lane r.total n := by
  have hterms : (lane.zip (r.weights lane.length)).map Prod.fst = lane :=
    List.map_fst_zip (Nat.le_of_eq hfit.symm)
  have hcoefficients : (lane.zip (r.weights lane.length)).map Prod.snd = r.weights lane.length :=
    List.map_snd_zip (Nat.le_of_eq hfit)
  have hwidth := Graph.height_eq_width (g := g) (lane.zip (r.weights lane.length))
  rw [hterms] at hwidth
  have hmem : ∀ t ∈ lane.zip (r.weights lane.length), t.1 ∈ lane :=
    fun t ht => (List.of_mem_zip ht).1
  have hfits := (Graph.fits_iff fun n hn => hg.positive (hlane n hn)).1 hmixes
  rw [node_eq hne hfit]
  refine (affine_zero hg op ?_ (fun t ht => hlane _ (hmem t ht)) fun t ht => ?_).imp
    fun n g' _ he hn => ?_
  · rintro h
    rw [h] at hterms
    exact hne hterms.symm
  · rw [hwidth]
    exact hfits _ (hmem t ht)
  · rw [hterms, hwidth, ← he.width hlane] at hn
    refine ⟨hn.1, hn.2.congr fun xs hxs => ?_⟩
    have hlength : xs.length = lane.length := by simpa using congrArg List.length hxs
    refine List.map_congr_left fun i _ => ?_
    have hys : (xs.map (componentAt · i)).length = lane.length := by rw [List.length_map, hlength]
    calc Scalar.sum (List.zipWith (fun t x => t.2 * componentAt x i)
            (lane.zip (r.weights lane.length)) xs)
        = Scalar.sum (List.zipWith (· * ·) ((lane.zip (r.weights lane.length)).map Prod.snd)
            (xs.map (componentAt · i))) := by rw [List.zipWith_map]
      _ = r.total (xs.map (componentAt · i)) := by
        rw [hcoefficients, ← hys]
        exact total_eq (hys.symm ▸ hcount)

end Reduction

theorem reduce_reads {name : String}
    (hc : (Registry.builtin : Registry α).chain .function name = [reduce name r]) (f : Fold) :
    ReadsAxis .function name [.fold f] f.rank fun axis => reduceFold name r f (some axis) := by
  refine readsAxis_of_handler (fun axis => some <$> reduceFold name r f (some axis)) nofun hc
    (fun d params a hp => ?_) fun axis => answered_some name _
  rw [reduce, intParam, hp]
  rfl

theorem reduce_whole {name : String}
    (hc : (Registry.builtin : Registry α).chain .function name = [reduce name r]) (f : Fold) :
    Registry.builtin.dispatch .function name [.fold f] .empty = reduceFold name r f none := by
  have hkind : DispatchKind.function ≠ .ufunc := nofun
  obtain ⟨d, hd⟩ := Registry.dispatch_eq hkind hc [.fold f] .empty
  rw [hd]
  exact answered_some name (reduceFold name r f none)

/-- The weighted sum along the last axis, if there is one. -/
theorem dot_eq (f : Fold) (weights : List α) :
    Operation.dot Registry.builtin.dispatch (.fold f) weights =
      if f.rank = 0 then throw (.badArguments "dot" .noAxis)
      else reduceFold "dot" (.weighted weights) f (some (f.rank - 1)) := by
  have hkind : DispatchKind.function ≠ .ufunc := nofun
  have hc : (Registry.builtin : Registry α).chain .function "dot" = [dot] := rfl
  have hshape : weights.toArray.size = Shape.size [weights.length] := by simp [Shape.size]
  have hvector : vector? (.array ⟨[weights.length], ⟨weights.toArray, hshape⟩⟩) =
      some weights := rfl
  obtain ⟨d, hd⟩ := Registry.dispatch_eq hkind hc
    [.fold f, .array ⟨[weights.length], ⟨weights.toArray, hshape⟩⟩] .empty
  rw [Operation.dot, hd]
  simp only [dot, hvector, Operand.isGraph, Operand.toFold, ofGraph_bind, Bool.not_true,
    Bool.false_eq_true, if_false]
  split
  · rfl
  · exact answered_some "dot" _

/-- Weights of another number than there are nodes in a lane. -/
theorem reduceFold_misfit (hg : g.Constructed) (h0 : 0 ∉ f.shape) (haxis : axis < f.rank)
    {weights : List α} (hfit : weights.length ≠ f.axisLength axis) :
    (reduceFold op (.weighted weights) f (some axis)).run g =
      .error (.sizeMismatch op (f.axisLength axis) weights.length) := by
  obtain ⟨i, hi⟩ := Shape.exists_within (mt List.mem_of_mem_eraseIdx h0)
  have hrefuses : (reduceFold op (.weighted weights) f (some axis)).Refuses g
      (· = .sizeMismatch op (f.axisLength axis) weights.length) := by
    rw [reduceFold, mapLanes_eq (NDArray.axisLength_ne_zero h0 haxis)]
    refine Refuses.map (Refuses.tabulateM hg (b := fun _ => True) ?_ ?_ ⟨i, hi, trivial⟩)
    · exact fun i _ h => absurd trivial h
    intro i _ _ g₁ _ _
    refine ⟨_, rfl, ?_⟩
    rw [← NDArray.length_lane i]
    exact Reduction.node_misfit (NDArray.lane_ne_nil h0 haxis i) (by rwa [NDArray.length_lane])
  obtain ⟨_, rfl, hrun⟩ := hrefuses
  exact hrun

variable [Scalar.Exact α]

/-- A reduction along an axis of an array without empty axes. -/
theorem reduceFold_along (hg : g.Constructed) (hf : ∀ n ∈ f.toList, n.index < g.size)
    (h0 : 0 ∉ f.shape) (haxis : axis < f.rank)
    (hcount : r = .mean → (Scalar.ofNat (f.axisLength axis) : α) ≠ Scalar.zero)
    (hfit : (r.weights (f.axisLength axis)).length = f.axisLength axis) :
    g.ReducesLanes f axis op r.total (reduceFold op r f (some axis)) := by
  have hlength := NDArray.axisLength_ne_zero h0 haxis
  have hlanes : ∀ i, Shape.Within i (f.shape.eraseIdx axis) → ∀ n ∈ f.lane axis i,
      n.index < g.size := fun i hi n hn => hf n (NDArray.lane_subset haxis hi hn)
  have hplaced : ∀ i, Shape.Within i (f.shape.eraseIdx axis) → ∀ g₁ : Graph α, g.Extends g₁ →
      ∀ n ∈ f.lane axis i, n.index < g₁.size :=
    fun i hi g₁ he n hn => Nat.lt_of_lt_of_le (hlanes i hi n hn) he.size
  have hyields : ∀ i, Shape.Within i (f.shape.eraseIdx axis) → ¬g.Mixes (f.lane axis i) →
      ∀ g₁ : Graph α, g₁.Constructed → g.Extends g₁ → (r.node op (f.lane axis i)).Yields g₁
        fun g' n => g'.Reduces (f.lane axis i) r.total n := by
    intro i hi hmixes g₁ hg₁ he
    refine Reduction.node_reduces hg₁ (hplaced i hi g₁ he) (NDArray.lane_ne_nil h0 haxis i) ?_ ?_
      (mt (he.mixes (hlanes i hi)).1 hmixes)
    · rwa [NDArray.length_lane]
    · rwa [NDArray.length_lane]
  rw [reduceFold, mapLanes_eq hlength]
  constructor
  · intro hex
    refine (Refuses.tabulateM hg (b := fun i => g.Mixes (f.lane axis i)) ?_ ?_ hex).map
    · intro i hi hmixes g₁ hg₁ he
      exact (hyields i hi hmixes g₁ hg₁ he).imp fun _ _ _ _ _ => trivial
    · intro i hi hmixes g₁ hg₁ he
      refine (Reduction.node_refuses hg₁ (hplaced i hi g₁ he) ?_
        ((he.mixes (hlanes i hi)).2 hmixes)).imp fun e hE => ⟨i, hi, hE.earlier he (hlanes i hi)⟩
      rwa [NDArray.length_lane]
  · intro hall
    have hnodes := Yields.tabulateM hg (S := fun i g' n => g'.Reduces (f.lane axis i) r.total n)
      (fun i _ g₁ g₂ n _ he hn => hn.later he) fun i hi => hyields i hi (hall i hi)
    refine Yields.map (hnodes.imp ?_)
    rintro a g' - - ⟨hshape, hentry⟩
    exact ⟨a, rfl, hshape, fun i hi => hentry i (hshape ▸ hi)⟩

/-- A reduction of all nodes of an array without empty axes. -/
theorem reduceFold_whole (hg : g.Constructed) (hf : ∀ n ∈ f.toList, n.index < g.size)
    (hne : f.toList ≠ []) (hcount : r = .mean → (Scalar.ofNat f.toList.length : α) ≠ Scalar.zero)
    (hfit : (r.weights f.toList.length).length = f.toList.length) :
    g.ReducesAll f.toList op r.total (reduceFold op r f none) := by
  constructor
  · exact fun hmixes => (Reduction.node_refuses hg hf hfit hmixes).map
  · exact fun hmixes => ((Reduction.node_reduces hg hf hne hcount hfit hmixes).imp
      fun n _ _ _ hn => ⟨n, rfl, hn⟩).map

/-- A reduction that has a coefficient for each node. -/
theorem reduce_reducesFold {name : String}
    (hc : (Registry.builtin : Registry α).chain .function name = [reduce name r])
    (hg : g.Constructed) (hf : ∀ n ∈ f.toList, n.index < g.size) (h0 : 0 ∉ f.shape)
    (hcount : r = .mean → ∀ k, (Scalar.ofNat (k + 1) : α) ≠ Scalar.zero)
    (hfit : ∀ count, (r.weights count).length = count) :
    g.ReducesFold f name r.total fun axis =>
      Registry.builtin.dispatch .function name [.fold f] (Operation.axisParams axis) := by
  have hcount : ∀ k, k ≠ 0 → r = .mean → (Scalar.ofNat k : α) ≠ Scalar.zero := by
    intro k hk hr
    obtain ⟨k, rfl⟩ := Nat.exists_eq_succ_of_ne_zero hk
    exact hcount hr k
  have hreads := reduce_reads hc f
  constructor
  · exact fun a ha => hreads.refused rfl ha g
  · intro axis haxis a ha
    rw [hreads.answered rfl (Shape.signedAxis_eq_ok.2 ⟨haxis, ha⟩)]
    exact reduceFold_along hg hf h0 haxis (hcount _ (NDArray.axisLength_ne_zero h0 haxis)) (hfit _)
  · have hne := NDArray.toList_ne_nil h0
    have hlength : f.toList.length ≠ 0 := mt List.length_eq_zero_iff.1 hne
    rw [Operation.axisParams, reduce_whole hc]
    exact reduceFold_whole hg hf hne (hcount _ hlength) (hfit _)

theorem dot_dots (hg : g.Constructed) (hf : ∀ n ∈ f.toList, n.index < g.size) (h0 : 0 ∉ f.shape)
    (weights : List α) :
    g.Dots f weights (Operation.dot Registry.builtin.dispatch (.fold f) weights) := by
  rw [dot_eq]
  constructor
  · intro hrank
    rw [if_pos hrank]
    rfl
  · intro last hrank hfit
    rw [if_neg (hrank ▸ Nat.succ_ne_zero last), hrank, Nat.add_sub_cancel]
    exact reduceFold_misfit hg h0 (hrank ▸ Nat.lt_succ_self last) hfit
  · intro last hrank hfit
    have haxis : last < f.rank := hrank ▸ Nat.lt_succ_self last
    rw [if_neg (hrank ▸ Nat.succ_ne_zero last), hrank, Nat.add_sub_cancel]
    exact reduceFold_along (r := .weighted weights) hg hf h0 haxis nofun hfit

end Builtin

namespace Graph.OverLanes

variable {g g' : Graph α} {f r : Fold} {axis : Nat}

theorem placed {total : List α → α} (h : g.OverLanes f axis total r) :
    ∀ n ∈ r.toList, n.index < g.size := by
  intro n hn
  obtain ⟨i, hi, rfl⟩ := NDArray.mem_toList.1 hn
  exact (h.entry i hi).placed

/-- Where no lane is mixed, the sizes of the nodes over the lanes are those of the nodes in them. -/
theorem sizes {total : List α → α} (h : g'.OverLanes f axis total r) (hg : g.Constructed)
    (he : g.Extends g') (hf : ∀ n ∈ f.toList, n.index < g.size) (h0 : 0 ∉ f.shape)
    (haxis : axis < f.rank)
    (hfits : ∀ i, Shape.Within i (f.shape.eraseIdx axis) → ¬g.Mixes (f.lane axis i)) {c : Nat}
    (hc : 1 < c) : c ∈ r.toList.map g'.sizeOf ↔ c ∈ f.toList.map g.sizeOf := by
  have hsize : ∀ i, Shape.Within i r.shape → g'.sizeOf (r.entry i) = g.width (f.lane axis i) :=
    fun i hi => (h.entry i hi).size.trans
      (he.width fun n hn => hf n (NDArray.lane_subset haxis (h.shape ▸ hi) hn))
  constructor
  · intro hmem
    obtain ⟨n, hn, rfl⟩ := List.mem_map.1 hmem
    obtain ⟨i, hi, rfl⟩ := NDArray.mem_toList.1 hn
    obtain ⟨m, hm, hwidth⟩ := width_mem (g := g) (NDArray.lane_ne_nil h0 haxis i)
    rw [hsize i hi, ← hwidth]
    exact List.mem_map_of_mem (NDArray.lane_subset haxis (h.shape ▸ hi) hm)
  · intro hmem
    obtain ⟨m, hm, rfl⟩ := List.mem_map.1 hmem
    obtain ⟨i, hi, hlane⟩ := List.mem_flatMap.1 ((NDArray.toList_perm_lanes haxis).mem_iff.1 hm)
    have hi := Shape.mem_indices.1 hi
    have hpos : ∀ n ∈ f.lane axis i, g.sizeOf n ≠ 0 :=
      fun n hn => hg.positive (hf n (NDArray.lane_subset haxis hi hn))
    have hwidth := ((fits_iff hpos).1 (hfits i hi) m hlane).resolve_right (by omega)
    rw [hwidth, ← hsize i (h.shape ▸ hi)]
    exact List.mem_map_of_mem (NDArray.mem_toList.2 ⟨i, h.shape ▸ hi, rfl⟩)

/-- The nodes over the lanes have the total of all nodes. -/
theorem totals [Scalar.Exact α] (h : g.OverLanes f axis Scalar.sum r)
    (hpos : ∀ n ∈ f.toList, g.sizeOf n ≠ 0) (h0 : 0 ∉ f.shape) (haxis : axis < f.rank)
    (hfits : ¬g.Mixes f.toList) :
    g.Totals (g.width f.toList) r.toList f.toList := by
  have hlanes : ∀ i ∈ Shape.indices r.shape,
      g.Totals (g.width f.toList) [r.entry i] (f.lane axis i) := by
    intro i hi
    have hi := Shape.mem_indices.1 hi
    obtain ⟨m, hm, hwidth⟩ := width_mem (g := g) (NDArray.lane_ne_nil h0 haxis i)
    have hfit := (fits_iff hpos).1 hfits m (NDArray.lane_subset haxis (h.shape ▸ hi) hm)
    exact .of_reduces (h.entry i hi) (hwidth ▸ hfit)
  rw [NDArray.toList_eq_indices r]
  exact (Totals.flatMap hlanes).perm (h.shape ▸ (NDArray.toList_perm_lanes haxis).symm)

end Graph.OverLanes

/-- The sums along axes, one after the other. -/
def sumAway (d : Dispatcher α) : List Int → Operand α → Build α (Operand α)
  | [], x => pure x
  | a :: axes, x => do sumAway d axes (← Operation.sum d x (some a))

/-- Axes, one after the other, that use up a rank. Each of them may be counted from the end. -/
def Exhausts : List Int → Nat → Prop
  | [], rank => rank = 0
  | a :: axes, rank => (-(rank : Int) ≤ a ∧ a < rank) ∧ Exhausts axes (rank - 1)

instance decidableExhausts : (axes : List Int) → (rank : Nat) → Decidable (Exhausts axes rank)
  | [], rank => inferInstanceAs (Decidable (rank = 0))
  | a :: axes, rank =>
    have := decidableExhausts axes (rank - 1)
    inferInstanceAs (Decidable ((-(rank : Int) ≤ a ∧ a < rank) ∧ Exhausts axes (rank - 1)))

/-- What is left of an array when all axes are summed away: one node that has the total of all. -/
structure Graph.SumsAway (g : Graph α) (f : Fold) (x : Build α (Operand α)) : Prop where
  mixed : g.Mixes f.toList → x.Refuses g (g.Mismatch "sum" f.toList)
  summed : ¬g.Mixes f.toList → x.Yields g fun g' y => ∃ n, y = .fold (.single n) ∧
    n.index < g'.size ∧ g'.sizeOf n = g.width f.toList ∧
    g'.Totals (g.width f.toList) [n] f.toList

section SumAway

variable {g : Graph α} {f : Fold}

/-- An array without axes has one node. -/
theorem sumsAway_single (hg : g.Constructed) {n : Node} (hn : n.index < g.size) :
    g.SumsAway (.single n) (pure (.fold (.single n))) := by
  have hwidth : g.width [n] = g.sizeOf n := rfl
  constructor
  · rintro ⟨a, b, hclash⟩
    have ha := List.mem_singleton.1 hclash.left
    have hb := List.mem_singleton.1 hclash.right
    exact absurd (ha.trans hb.symm) hclash.ne
  · exact fun _ => .of_run hg rfl ⟨n, rfl, hn, hwidth.symm, .refl g _ [n]⟩

variable [Scalar.Exact α]

theorem sum_reducesFold (hg : g.Constructed) (hf : ∀ n ∈ f.toList, n.index < g.size)
    (h0 : 0 ∉ f.shape) :
    g.ReducesFold f "sum" Scalar.sum (Operation.sum Registry.builtin.dispatch (.fold f)) :=
  Builtin.reduce_reducesFold (r := .sum) rfl hg hf h0 nofun fun _ => List.length_replicate

/-- What is left of the nodes over the lanes is left of all nodes, where no lane is mixed. -/
theorem sumsAway_of_lanes {g' : Graph α} {r : Fold} {axis : Nat} {x : Build α (Operand α)}
    (hg : g.Constructed) (hg' : g'.Constructed) (he : g.Extends g')
    (hf : ∀ n ∈ f.toList, n.index < g.size) (h0 : 0 ∉ f.shape) (haxis : axis < f.rank)
    (hfits : ∀ i, Shape.Within i (f.shape.eraseIdx axis) → ¬g.Mixes (f.lane axis i))
    (hr : g'.OverLanes f axis Scalar.sum r) (hx : g'.SumsAway r x) : g'.SumsAway f x := by
  have hplaced : ∀ n ∈ f.toList, n.index < g'.size :=
    fun n hn => Nat.lt_of_lt_of_le (hf n hn) he.size
  have hsizes : ∀ c, 1 < c → (c ∈ r.toList.map g'.sizeOf ↔ c ∈ f.toList.map g'.sizeOf) := by
    intro c hc
    rw [hr.sizes hg he hf h0 haxis hfits hc, he.sizes hf]
  have hne := NDArray.toList_ne_nil h0
  have hne' : r.toList ≠ [] :=
    NDArray.toList_ne_nil (hr.shape ▸ mt List.mem_of_mem_eraseIdx h0)
  have hpos : ∀ n ∈ f.toList, g'.sizeOf n ≠ 0 := fun n hn => hg'.positive (hplaced n hn)
  have hwidth : g'.width r.toList = g'.width f.toList := by
    refine le_antisymm (Graph.width_le hne' hne hpos fun c hc => (hsizes c hc).1) ?_
    exact Graph.width_le hne hne' (fun n hn => hg'.positive (hr.placed n hn))
      fun c hc => (hsizes c hc).2
  constructor
  · intro hall
    exact (hx.mixed (hall.mono fun c hc => (hsizes c hc).2)).imp
      fun e hE => hE.mono fun c hc => (hsizes c hc).1
  · intro hall
    refine (hx.summed fun h => hall (h.mono fun c hc => (hsizes c hc).1)).imp ?_
    rintro y g₂ - he₂ ⟨n, rfl, hn, hsize, htotals⟩
    rw [hwidth] at hsize htotals
    have hover := (hr.totals hpos h0 haxis hall).later he₂ hr.placed hplaced
    exact ⟨n, rfl, hn, hsize, htotals.trans hover⟩

/-- By induction on the axes: a lane along the first one is mixed, or what is left of the nodes over
the lanes is left of all nodes. -/
theorem sumAway_sumsAway (axes : List Int) (hg : g.Constructed)
    (hf : ∀ n ∈ f.toList, n.index < g.size) (h0 : 0 ∉ f.shape) (haxes : Exhausts axes f.rank) :
    g.SumsAway f (sumAway Registry.builtin.dispatch axes (.fold f)) := by
  induction axes generalizing g f with
  | nil =>
    obtain ⟨n, rfl⟩ := NDArray.exists_single haxes
    exact sumsAway_single hg (hf n List.mem_cons_self)
  | cons a axes ih =>
    obtain ⟨⟨hlow, hhigh⟩, haxes⟩ := haxes
    obtain ⟨axis, haxis, ha⟩ := Shape.exists_axis hlow hhigh
    have hstep := (sum_reducesFold hg hf h0).along axis haxis a ha
    rw [sumAway]
    by_cases hmixes : ∃ i, Shape.Within i (f.shape.eraseIdx axis) ∧ g.Mixes (f.lane axis i)
    · refine ⟨fun _ => ((hstep.mixed hmixes).imp ?_).bind, fun hall => ?_⟩
      · rintro e ⟨i, hi, hE⟩
        exact hE.mono fun c _ hc => List.map_subset _ (NDArray.lane_subset haxis hi) hc
      · obtain ⟨i, hi, hlane⟩ := hmixes
        exact absurd (hlane.subset (NDArray.lane_subset haxis hi)) hall
    · have hfits : ∀ i, Shape.Within i (f.shape.eraseIdx axis) → ¬g.Mixes (f.lane axis i) :=
        fun i hi hlane => hmixes ⟨i, hi, hlane⟩
      have hrest : ∀ g₁ : Graph α, g₁.Constructed → g.Extends g₁ → ∀ r : Fold,
          g₁.OverLanes f axis Scalar.sum r →
            g₁.SumsAway f (sumAway Registry.builtin.dispatch axes (.fold r)) := by
        intro g₁ hg₁ he r hr
        refine sumsAway_of_lanes hg hg₁ he hf h0 haxis hfits hr (ih hg₁ hr.placed ?_ ?_)
        · exact hr.shape ▸ mt List.mem_of_mem_eraseIdx h0
        · rwa [NDArray.rank, hr.shape, List.length_eraseIdx_of_lt haxis]
      constructor
      · intro hall
        refine .after (hstep.reduced hfits) ?_
        rintro y g₁ hg₁ he ⟨r, rfl, hr⟩
        exact ((hrest g₁ hg₁ he r hr).mixed ((he.mixes hf).2 hall)).imp
          fun e hE => hE.earlier he hf
      · intro hall
        refine (hstep.reduced hfits).bind ?_
        rintro y g₁ hg₁ he ⟨r, rfl, hr⟩
        rw [← he.width hf]
        exact (hrest g₁ hg₁ he r hr).summed (mt (he.mixes hf).1 hall)

end SumAway

/-- Sums, means and weighted sums of an array without empty axes. Along an axis, which may be
counted from the end for a sum or a mean, there is one linear node over each lane, and without an
axis one over all nodes. A lane of mixed sizes is refused, as is an axis or a number of weights that
does not fit the array. Summing away the axes one by one, in any order, comes to the value of the
sum of all nodes, and is refused when that is. A machine needs room for the square blocks of the sums,
each of fewer than `entryLimit` entries. -/
theorem reductions_denote [Scalar.Exact α] {g : Graph α} (hg : g.Constructed) {f : Fold}
    (hf : ∀ n ∈ f.toList, n.index < g.size) (h0 : 0 ∉ f.shape) :
    g.ReducesFold f "sum" Scalar.sum (Operation.sum Registry.builtin.dispatch (.fold f)) ∧
    ((∀ k, (Scalar.ofNat (k + 1) : α) ≠ Scalar.zero) →
      g.ReducesFold f "mean" (fun ys => Scalar.sum ys / Scalar.ofNat ys.length)
        (Operation.mean Registry.builtin.dispatch (.fold f))) ∧
    (∀ weights : List α,
      g.Dots f weights (Operation.dot Registry.builtin.dispatch (.fold f) weights)) ∧
    ∀ axes, Exhausts axes f.rank →
      (g.Mixes f.toList →
        (sumAway Registry.builtin.dispatch axes (.fold f)).Refuses g (g.Mismatch "sum" f.toList)) ∧
      (¬g.Mixes f.toList →
        (do
          let one ← sumAway Registry.builtin.dispatch axes (.fold f)
          let all ← Operation.sum Registry.builtin.dispatch (.fold f) none
          return (one, all) : Build α (Operand α × Operand α)).Yields g fun g' x =>
            ∃ n m, x = (.fold (.single n), .node m) ∧ g'.SameValue n m) := by
  refine ⟨sum_reducesFold hg hf h0, fun hcount => Builtin.reduce_reducesFold (r := .mean) rfl hg hf
    h0 (fun _ => hcount) fun _ => List.length_replicate, Builtin.dot_dots hg hf h0,
    fun axes haxes => ?_⟩
  have haway := sumAway_sumsAway axes hg hf h0 haxes
  refine ⟨haway.mixed, fun hmixes => (haway.summed hmixes).bind ?_⟩
  rintro x g₁ hg₁ he ⟨n, rfl, hn, hsize, htotals⟩
  have hplaced : ∀ n ∈ f.toList, n.index < g₁.size :=
    fun n hn => Nat.lt_of_lt_of_le (hf n hn) he.size
  have hwhole := (sum_reducesFold hg₁ hplaced h0).whole.reduced (mt (he.mixes hf).1 hmixes)
  refine hwhole.bind ?_
  rintro y g₂ hg₂ he₂ ⟨m, rfl, hm⟩
  refine .of_run hg₂ rfl ⟨n, m, rfl, ?_⟩
  have hwidth : g₂.width f.toList = g.width f.toList := (he.trans he₂).width hf
  refine Graph.Totals.sameValue ?_ ?_ hm
  · rw [hwidth]
    exact htotals.later he₂ (List.forall_mem_singleton.2 hn) hplaced
  · rw [he₂.sizeOf hn, hsize, hwidth]

/-- Four sources in a square. -/
def fourSources : Build ℚ Node := do
  discard <| Build.stimulus (.constant [1])
  discard <| Build.stimulus (.constant [2])
  discard <| Build.stimulus (.constant [3])
  Build.stimulus (.constant [4])

def square : Fold := ⟨[2, 2], #v[⟨0⟩, ⟨1⟩, ⟨2⟩, ⟨3⟩]⟩

theorem fourSources_constructed : fourSources.graph.Constructed := by
  have hall : ∀ k : BuiltinKind ℚ, (fun _ => True) k.element := fun _ => trivial
  have hk : Build.Keeps (fun _ => True) fourSources :=
    ((Build.keeps_stimulus hall _).bind fun _ => Build.keeps_pure _).bind fun _ =>
    ((Build.keeps_stimulus hall _).bind fun _ => Build.keeps_pure _).bind fun _ =>
    ((Build.keeps_stimulus hall _).bind fun _ => Build.keeps_pure _).bind fun _ =>
      Build.keeps_stimulus hall _
  exact hk.constructed

theorem square_fits {ns : List Node} (hns : ns ⊆ square.toList) :
    ¬fourSources.graph.Mixes ns := by
  rintro h
  obtain ⟨a, b, hclash⟩ := h.subset hns
  have hsizes : square.toList.map fourSources.graph.sizeOf = [1, 1, 1, 1] := by decide +kernel
  have ha := hsizes ▸ hclash.left
  have hmany := hclash.left_many
  simp only [List.mem_cons, List.not_mem_nil, or_false, or_self] at ha
  omega

/-- The node of the second row. -/
def secondRow : Operand ℚ → Option Node
  | .fold r => some (r.entry [1])
  | _ => none

/-- The sum of the second row, realized on an empty network, in the first step. -/
theorem secondRow_value {r : Fold} {g : Graph ℚ}
    (hrun : (Operation.sum Registry.builtin.dispatch (.fold square) (some (-1))).run
      fourSources.graph = .ok (.fold r, g))
    (hg : g.Constructed) (he : fourSources.graph.Extends g)
    (hnode : g.Reduces [⟨2⟩, ⟨3⟩] Scalar.sum (r.entry [1])) :
    ∃ q v, Usage Defaults.standard g q ∧ q.built (r.entry [1]) = some ⟨2, 1⟩ ∧
      q.target.Observed v ∧ v.of 2 = [7] := by
  have hmade : (fun p : Operand ℚ × Graph ℚ => (secondRow p.1).map fun n =>
        ((make Target.network p.2 Defaults.standard n).run (.start (.empty none))).1) <$>
      (Operation.sum Registry.builtin.dispatch (.fold square) (some (-1))).run
        fourSources.graph = .ok (some (.ok ⟨2, 1⟩)) := by decide +kernel
  have hstep : (fun p : Operand ℚ × Graph ℚ => (secondRow p.1).map fun n =>
        (fun s => s.step.1) <$> Backend.cpu.engine.build ((make Target.network p.2
          Defaults.standard n).run (.start (.empty none))).2.target 1) <$>
      (Operation.sum Registry.builtin.dispatch (.fold square) (some (-1))).run
        fourSources.graph = .ok (some (.ok (.ok ()))) := by decide +kernel
  rw [hrun] at hmade hstep
  obtain ⟨husage, hbuilt, v, hv⟩ := hg.observed
    (Prod.ext (Option.some.inj (Except.ok.inj hmade)) rfl) (Option.some.inj (Except.ok.inj hstep))
  have hthree : g.Computes ⟨2⟩ [] fun _ => [3] := Graph.computes_constant (he.record? rfl)
  have hfour : g.Computes ⟨3⟩ [] fun _ => [4] := Graph.computes_constant (he.record? rfl)
  obtain ⟨_, _, -, ⟨_, _, rfl⟩, -, hvalue⟩ := hnode.value.comp nofun
    (.cons hthree (.cons hfour .nil)) _ g _ _ (.refl g) husage hbuilt
  have hwidth : g.width [⟨2⟩, ⟨3⟩] = 1 := (he.width (by decide +kernel)).trans (by decide +kernel)
  refine ⟨_, v, husage, hbuilt, hv, ((hvalue trivial v hv).2).trans ?_⟩
  rw [hwidth]
  change [Scalar.sum [componentAt [3] 0, componentAt [4] 0]] = [(7 : ℚ)]
  decide +kernel

/-- The rows of the square are summed, the second one to 7. Its axes in any order come to the sum of
all, and there is no third axis. -/
theorem square_reduced :
    fourSources.graph.Constructed ∧
    (∃ r g q v, (Operation.sum Registry.builtin.dispatch (.fold square) (some (-1))).run
        fourSources.graph = .ok (.fold r, g) ∧ r.shape = [2] ∧
      g.Reduces [⟨2⟩, ⟨3⟩] Scalar.sum (r.entry [1]) ∧ Usage Defaults.standard g q ∧
      q.built (r.entry [1]) = some ⟨2, 1⟩ ∧ q.target.Observed v ∧ v.of 2 = [7]) ∧
    (∀ axes ∈ [[0, 0], [-1, 0], [1, -1]], ∃ n m g, (do
        let one ← sumAway Registry.builtin.dispatch axes (.fold square)
        let all ← Operation.sum Registry.builtin.dispatch (.fold square) none
        return (one, all) : Build ℚ (Operand ℚ × Operand ℚ)).run fourSources.graph =
          .ok ((.fold (.single n), .node m), g) ∧ g.SameValue n m) ∧
    (Operation.mean Registry.builtin.dispatch (.fold square) (some 2)).run fourSources.graph =
      .error (.shape (.axisOutOfBounds 2 2)) := by
  have hg := fourSources_constructed
  have hcount : ∀ k : Nat, (Scalar.ofNat (k + 1) : ℚ) ≠ Scalar.zero :=
    fun k => Nat.cast_ne_zero.2 (Nat.succ_ne_zero k)
  have hplaced : ∀ n ∈ square.toList, n.index < fourSources.graph.size := by decide +kernel
  obtain ⟨hsum, hmean, -, haway⟩ := reductions_denote hg hplaced (by decide)
  refine ⟨hg, ?_, fun axes haxes => ?_, (hmean hcount).outside 2 (by decide)⟩
  · obtain ⟨_, g, hrun, hg', he, r, rfl, hr⟩ := (hsum.along 1 (by decide) (-1) (by decide)).reduced
      fun i hi => square_fits (NDArray.lane_subset (by decide) hi)
    have hnode : g.Reduces [⟨2⟩, ⟨3⟩] Scalar.sum (r.entry [1]) :=
      hr.entry [1] (hr.shape ▸ by decide)
    obtain ⟨q, v, hvalue⟩ := secondRow_value hrun hg' he hnode
    exact ⟨r, g, q, v, hrun, hr.shape, hnode, hvalue⟩
  · have hexhausts : ∀ axes ∈ [[0, 0], [-1, 0], [1, -1]], Exhausts axes square.rank := by decide
    obtain ⟨_, g, hrun, -, -, n, m, rfl, hsame⟩ :=
      (haway axes (hexhausts axes haxes)).2 (square_fits (List.Subset.refl _))
    exact ⟨n, m, g, hrun, hsame⟩

end SignalGraph
