import SignalGraph.Proofs.Arrays.Lanes
import SignalGraph.Proofs.Dispatch.Axes
import SignalGraph.Proofs.Realize.Constructions
import SignalGraph.Proofs.Steady.Runs

namespace SignalGraph

open Build Realize

variable {α : Type}

/-- The nodes of an array are nodes of the graph and have one size. -/
def Graph.Uniform (g : Graph α) (f : Fold) (size : Nat) : Prop :=
  ∀ i, Shape.Within i f.shape → (f.entry i).index < g.size ∧ g.sizeOf (f.entry i) = size

variable [Scalar α] {g g' : Graph α} {f : Fold} {size axis : Nat}

/-- The component `k` of the first input as a vector of its own. -/
def component (k : Nat) (xs : List (List α)) : List α := [(xs.headD []).getD k Scalar.zero]

namespace Graph

/-- A node of the given size that has the value that `f` gives of the values of `ms`. -/
def Gives (g : Graph α) (size : Nat) (ms : List Node) (f : List (List α) → List α) (n : Node) :
    Prop :=
  n.index < g.size ∧ g.sizeOf n = size ∧ g.Computes n ms f

theorem Gives.later {ms : List Node} {f : List (List α) → List α} {n : Node}
    (h : g.Gives size ms f n) (he : g.Extends g') (hms : ∀ m ∈ ms, m.index < g.size) :
    g'.Gives size ms f n :=
  ⟨Nat.lt_of_lt_of_le h.1 he.size, (he.sizeOf h.1).trans h.2.1, h.2.2.mono he h.1 hms⟩

theorem Gives.placed {ms : List Node} {f : List (List α) → List α} {n : Node}
    (h : g.Gives size ms f n) : n.index < g.size ∧ g.sizeOf n = size :=
  ⟨h.1, h.2.1⟩

omit [Scalar α] in
theorem Uniform.later (h : g.Uniform f size) (he : g.Extends g') : g'.Uniform f size := by
  intro i hi
  obtain ⟨hlt, hsize⟩ := h i hi
  exact ⟨Nat.lt_of_lt_of_le hlt he.size, (he.sizeOf hlt).trans hsize⟩

omit [Scalar α] in
theorem uniform_iff : g.Uniform f size ↔ ∀ n ∈ f.toList, n.index < g.size ∧ g.sizeOf n = size := by
  constructor
  · intro h
    rw [NDArray.toList_eq_map]
    refine List.forall_mem_map.2 fun p hp => ?_
    exact h _ (Shape.within_unravel (List.mem_range.1 hp))
  · exact fun h i hi => h _ (List.mem_of_getElem? (NDArray.toList_offset hi))

omit [Scalar α] in
/-- An array whose nodes are known by their places on an axis and on the others. -/
theorem Uniform.of_insertIdx {s : Shape} {count : Nat} (hs : f.shape = s.insertIdx axis count)
    (haxis : axis ≤ s.length) (h : ∀ i q, Shape.Within i s → q < count →
      (f.entry (i.insertIdx axis q)).index < g.size ∧
        g.sizeOf (f.entry (i.insertIdx axis q)) = size) : g.Uniform f size := by
  intro i hi
  obtain ⟨j, q, rfl, hj, hq⟩ := Shape.exists_insertIdx haxis (hs ▸ hi)
  exact h j q hj hq

omit [Scalar α] in
/-- The nodes along an axis. -/
theorem Uniform.lane (h : g.Uniform f size) (haxis : axis < f.rank) {i : List Nat}
    (hi : Shape.Within i (f.shape.eraseIdx axis)) :
    ∀ n ∈ f.lane axis i, n.index < g.size ∧ g.sizeOf n = size := by
  refine List.forall_mem_map.2 fun q hq => h _ ?_
  have hwithin := Shape.within_insertIdx hi (Shape.le_length_eraseIdx haxis) (List.mem_range.1 hq)
  rwa [NDArray.axisLength, Shape.insertIdx_axis haxis] at hwithin

omit [Scalar α] in
theorem Uniform.lane_sizes (h : g.Uniform f size) (haxis : axis < f.rank) {i : List Nat}
    (hi : Shape.Within i (f.shape.eraseIdx axis)) :
    (f.lane axis i).map g.sizeOf = List.replicate (f.axisLength axis) size := by
  rw [List.map_congr_left fun n hn => (h.lane haxis hi n hn).2, List.map_const',
    NDArray.length_lane]

end Graph

/-- An operation that is not elementwise is answered by its only handler. -/
theorem Registry.dispatch_yields {kind : DispatchKind} {name : String} {operands : List (Operand α)}
    {params : Params α} {handler : Handler α} {Q : Graph α → Operand α → Prop}
    (hkind : kind ≠ .ufunc) (hc : (builtin : Registry α).chain kind name = [handler])
    (hh : ∀ d, (handler d operands params).Yields g fun g' x => ∃ y, x = some y ∧ Q g' y) :
    ((builtin : Registry α).dispatch kind name operands params).Yields g Q := by
  obtain ⟨d, hd⟩ := dispatch_eq hkind hc operands params
  rw [hd]
  refine (hh d).bind fun x g' hg' _ hx => ?_
  obtain ⟨y, rfl, hy⟩ := hx
  exact .of_run hg' rfl hy

namespace Builtin

open SignalGraph.Graph

variable [Scalar.Exact α]

/-- The lanes along an axis, each in one node. -/
theorem mapLanes_bundle (hg : g.Constructed) (hf : g.Uniform f size) (haxis : axis < f.rank)
    (hne : f.axisLength axis ≠ 0) (hsize : size ≠ 0)
    (hlt : f.axisLength axis * size < wordCount) :
    (mapLanes f axis Build.bundle).Yields g fun g' b => b.shape = f.shape.eraseIdx axis ∧
      ∀ i, Shape.Within i (f.shape.eraseIdx axis) →
        g'.Gives (f.axisLength axis * size) (f.lane axis i) List.flatten (b.entry i) := by
  rw [mapLanes_eq hne]
  refine .tabulateM hg (fun i hi g₁ g₂ n he₁ he₂ hn => ?_) fun i hi g₁ hg₁ he₁ => ?_
  · exact hn.later he₂ fun m hm => ((hf.later he₁).lane haxis hi m hm).1
  · have hlane := (hf.later he₁).lane haxis hi
    have htotal : Shape.total ((f.lane axis i).map g₁.sizeOf) = f.axisLength axis * size := by
      rw [(hf.later he₁).lane_sizes haxis hi]
      exact List.sum_replicate_nat
    have hword : Shape.wordTotal ((f.lane axis i).map g₁.sizeOf) = f.axisLength axis * size :=
      (Shape.wordTotal_of_lt (htotal ▸ hlt)).trans htotal
    have hlanes : f.lane axis i ≠ [] := by
      simpa [NDArray.lane] using hne
    refine (bundle_makes hg₁ (fun m hm => (hlane m hm).1) hlanes ?_).imp fun n g₂ _ _ hn => ?_
    · rw [hword]
      exact Nat.mul_ne_zero hne hsize
    · exact ⟨hn.1, hn.2.1.trans hword, hn.2.2 (htotal ▸ hlt)⟩

/-- The components of all nodes, those of one behind those of the other. -/
theorem components_yields (hg : g.Constructed) (hf : g.Uniform f size) :
    (components f size).Yields g fun g' ns => ns.length = Shape.size f.shape * size ∧
      ∀ i q, Shape.Within i f.shape → q < size → ∃ n,
        ns[Shape.offset f.shape i * size + q]? = some n ∧
          g'.Gives 1 [f.entry i] (component q) n := by
  refine .map ((Yields.mapM (S := fun n g' ns => List.Forall₂
    (fun q m => g'.Gives 1 [n] (component q) m) (List.range size) ns) hg ?_ ?_).imp ?_)
  · intro n hn g₁ g₂ ns he₁ he₂ hns
    refine hns.imp fun q m hm => hm.later he₂ (List.forall_mem_singleton.2 ?_)
    exact Nat.lt_of_lt_of_le (uniform_iff.1 hf n hn).1 he₁.size
  · intro n hn g₁ hg₁ he₁
    obtain ⟨hlt, hsize⟩ := uniform_iff.1 hf n hn
    have hlt₁ := Nat.lt_of_lt_of_le hlt he₁.size
    refine .mapM hg₁ (fun q _ g₂ g₃ m he₂ he₃ hm => hm.later he₃ ?_) fun q hq g₂ hg₂ he₂ => ?_
    · exact List.forall_mem_singleton.2 (Nat.lt_of_lt_of_le hlt₁ he₂.size)
    · refine slice_makes hg₂ (Nat.lt_of_lt_of_le hlt₁ he₂.size) (List.cons_ne_nil q []) ?_
      rw [he₂.sizeOf hlt₁, he₁.sizeOf hlt, hsize]
      exact List.forall_mem_singleton.2 (List.mem_range.1 hq)
  · intro nss g' _ _ hall
    have hblocks : ∀ ns ∈ nss, ns.length = size := by
      intro ns hns
      obtain ⟨n, -, hns⟩ := forall₂_mem_right hall hns
      rw [← hns.length_eq, List.length_range]
    obtain ⟨hlength, hget⟩ := flatten_blocks hblocks
    refine ⟨by rw [hlength, ← hall.length_eq, NDArray.size_toList], fun i q hi hq => ?_⟩
    obtain ⟨ns, hns, hcomponents⟩ := forall₂_partner hall (NDArray.toList_offset hi)
    obtain ⟨m, hm, hgives⟩ := forall₂_partner hcomponents (List.getElem?_range hq)
    exact ⟨m, (hget _ q ns hns hq).trans hm, hgives⟩

omit [Scalar α] [Scalar.Exact α] in
/-- The parameters name an axis of a rank. -/
theorem axisParam_run {params : Params α} {op : String} {rank : Nat}
    (hp : params.get? "axis" = some (.int axis)) (haxis : axis < rank) :
    (axisParam op params rank).run g = .ok (axis, g) := by
  rw [axisParam_eq hp]
  exact ofShape_ok.2 ⟨Shape.signedAxis_eq_ok.2 ⟨haxis, .inl rfl⟩, rfl⟩

/-- The components of the nodes along the new axis that the parameters name. -/
theorem unbundle_yields (hg : g.Constructed) (hf : g.Uniform f size)
    (hne : Shape.size f.shape ≠ 0) (hsize : size ≠ 0) (hlt : Shape.size f.shape * size < entryLimit)
    {params : Params α} (hp : params.get? "axis" = some (.int axis)) (haxis : axis ≤ f.rank) :
    (Registry.builtin.dispatch .method "unbundle" [.fold f] params).Yields g fun g' x =>
      ∃ u : Fold, x = .fold u ∧ u.shape = f.shape.insertIdx axis size ∧
        ∀ i q, Shape.Within i f.shape → q < size →
          g'.Gives 1 [f.entry i] (component q) (u.entry (i.insertIdx axis q)) := by
  have hsizes : f.toList.map g.sizeOf = List.replicate (Shape.size f.shape) size := by
    rw [List.map_congr_left fun n hn => (uniform_iff.1 hf n hn).2, List.map_const',
      NDArray.size_toList]
  have hhead : (f.toList.map g.sizeOf).headD 0 = size := by
    obtain ⟨k, hk⟩ := Nat.exists_eq_succ_of_ne_zero hne
    rw [hsizes, hk]
    rfl
  have hfind : (f.toList.map g.sizeOf).find? (· ≠ size) = none := by
    rw [hsizes]
    simp
  have hchain : (Registry.builtin : Registry α).chain .method "unbundle" = [unbundle] := rfl
  refine Registry.dispatch_yields nofun hchain fun d => ?_
  rw [unbundle]
  refine .after_run rfl (.after_run (axisParam_run hp (Nat.lt_succ_of_le haxis))
    (.after_run (sizes_ok.2 ⟨rfl, rfl⟩) ?_))
  dsimp only
  rw [hhead, hfind]
  refine (components_yields hg hf).bind fun ns g' hg' he h => ?_
  obtain ⟨hlength, hget⟩ := h
  have hplaces : Shape.size (f.shape ++ [size]) = Shape.size f.shape * size := by
    rw [Shape.size_append, Shape.size, Shape.size, Nat.mul_one]
  obtain ⟨a, hfill, hashape, halist⟩ := NDArray.fill_ok (hlength.trans hplaces.symm)
    (hplaces ▸ Nat.mul_ne_zero hne hsize) (hplaces ▸ Nat.lt_trans hlt (by decide))
  obtain ⟨u, hperm, hushape, hentry⟩ := NDArray.permute_last hashape haxis
  refine .after_run (ofShape_ok.2 ⟨hfill, rfl⟩) (.after_run (ofShape_ok.2 ⟨hperm, rfl⟩)
    (.of_run hg' rfl ⟨_, rfl, u, rfl, hushape, fun i q hi hq => ?_⟩))
  obtain ⟨n, hn, hgives⟩ := hget i q hi hq
  have hwithin : Shape.Within (i ++ [q]) a.shape := hashape ▸ Shape.within_append hi ⟨hq, trivial⟩
  have hplace := NDArray.toList_offset hwithin
  rw [halist, hashape, Shape.offset_append hi] at hplace
  have hunit : Shape.offset [size] [q] = q := by simp [Shape.offset, Shape.size]
  rw [hunit, Shape.size, Shape.size, Nat.mul_one, hn] at hplace
  rw [hentry i q hi hq, ← Option.some.inj hplace]
  exact hgives

/-- The lanes along the axis that the parameters name. -/
theorem bundle_yields (hg : g.Constructed) (hf : g.Uniform f size) (haxis : axis < f.rank)
    (hne : f.axisLength axis ≠ 0) (hsize : size ≠ 0)
    (hlt : f.axisLength axis * size < wordCount) {params : Params α}
    (hp : params.get? "axis" = some (.int axis)) :
    (Registry.builtin.dispatch .method "bundle" [.fold f] params).Yields g fun g' x =>
      ∃ b : Fold, x = .fold b ∧ b.shape = f.shape.eraseIdx axis ∧
        ∀ i, Shape.Within i (f.shape.eraseIdx axis) →
          g'.Gives (f.axisLength axis * size) (f.lane axis i) List.flatten (b.entry i) := by
  have hchain : (Registry.builtin : Registry α).chain .method "bundle" = [bundle] := rfl
  refine Registry.dispatch_yields nofun hchain fun d => ?_
  rw [bundle]
  refine .after_run rfl (.after_run (axisParam_run hp haxis) ?_)
  refine (mapLanes_bundle hg hf haxis hne hsize hlt).bind fun b g' hg' _ hb => ?_
  exact .of_run hg' rfl ⟨_, rfl, b, rfl, hb⟩

omit [Scalar.Exact α] in
/-- Lanes whose components come to zero as a word are not bundled. -/
theorem bundle_refused (hg : g.Constructed) (hf : g.Uniform f size) (haxis : axis < f.rank)
    (h0 : 0 ∉ f.shape) (hzero : f.axisLength axis * size % wordCount = 0)
    {params : Params α} (hp : params.get? "axis" = some (.int axis)) :
    (Registry.builtin.dispatch .method "bundle" [.fold f] params).run g =
      .error (.shape (.invalid (.emptyOutput "bundle"))) := by
  have hchain : (Registry.builtin : Registry α).chain .method "bundle" = [bundle] := rfl
  have hkind : DispatchKind.method ≠ .ufunc := nofun
  obtain ⟨d, hd⟩ := Registry.dispatch_eq hkind hchain [.fold f] params
  have hcount := NDArray.axisLength_ne_zero h0 haxis
  obtain ⟨i, hi⟩ := Shape.exists_within (mt List.mem_of_mem_eraseIdx h0 : 0 ∉ f.shape.eraseIdx axis)
  have hlanes : (mapLanes f axis Build.bundle).Refuses g
      (· = .shape (.invalid (.emptyOutput "bundle"))) := by
    rw [mapLanes_eq hcount]
    refine .tabulateM hg (b := fun _ => True) (fun i _ h => absurd trivial h) ?_ ⟨i, hi, trivial⟩
    intro i hi _ g₁ _ he₁
    refine ⟨_, rfl, element_empty ?_⟩
    obtain ⟨k, hk⟩ := Nat.exists_eq_succ_of_ne_zero hcount
    rw [hk] at hzero
    have htotal : Shape.total (List.replicate (k + 1) size) = (k + 1) * size :=
      List.sum_replicate_nat
    have hword : Shape.wordTotal (List.replicate (k + 1) size) = 0 := by
      rwa [Shape.wordTotal, htotal]
    rw [(hf.later he₁).lane_sizes haxis hi, hk]
    exact congrArg Except.ok hword
  have hrefused : (Registry.builtin.dispatch .method "bundle" [.fold f] params).Refuses g
      (· = .shape (.invalid (.emptyOutput "bundle"))) := by
    rw [hd, bundle]
    exact .bind (.after_run rfl (.after_run (axisParam_run hp haxis) hlanes.bind))
  obtain ⟨_, rfl, hrun⟩ := hrefused
  exact hrun

end Builtin

namespace Graph

variable {n : Node} {ns : List Node}

/-- A component of a bundle is a component of one of its nodes. -/
theorem Gives.component_of_bundle {m m' : Node} {k width : Nat}
    (hn : g.Gives 1 [m] (component k) n) (hm : g.Gives width ns List.flatten m)
    (hns : ∀ m ∈ ns, g.sizeOf m = size) (hsize : size ≠ 0) (hm' : ns[k / size]? = some m') :
    g.Gives 1 [m'] (component (k % size)) n := by
  refine ⟨hn.1, hn.2.1, (hn.2.2.comp (by simp) (.cons hm.2.2 .nil)).select hm' fun xs hxs => ?_⟩
  have hblocks : ∀ x ∈ xs, x.length = size := by
    intro x hx
    have hmem := List.mem_map_of_mem (f := List.length) hx
    rw [hxs] at hmem
    obtain ⟨m, hm, hl⟩ := List.mem_map.1 hmem
    rw [← hl, hns m hm]
  have hlt : k / size < xs.length := by
    have hlength := congrArg List.length hxs
    rw [List.length_map, List.length_map] at hlength
    rw [hlength]
    exact (List.getElem?_eq_some_iff.1 hm').1
  obtain ⟨x, hx⟩ : ∃ x, xs[k / size]? = some x := ⟨_, List.getElem?_eq_getElem hlt⟩
  have hget := (flatten_blocks hblocks).2 _ _ x hx (Nat.mod_lt k (Nat.pos_of_ne_zero hsize))
  rw [Nat.div_add_mod'] at hget
  change [xs.flatten.getD k Scalar.zero] = [(xs.getD (k / size) []).getD (k % size) Scalar.zero]
  simp only [List.getD_eq_getElem?_getD, hget, hx, Option.getD_some]

/-- The components of a node bundled again have its value. -/
theorem Gives.bundle_of_components {m : Node} (hn : g.Gives size ns List.flatten n)
    (hm : g.sizeOf m = size) (hsize : size ≠ 0)
    (hns : List.Forall₂ (fun n q => g.Gives 1 [m] (component q) n) ns (List.range size)) :
    g.Gives size [m] (·.headD []) n := by
  have hne : ns ≠ [] := by
    rintro rfl
    exact hsize (by simpa using hns.length_eq.symm)
  have hall : List.Forall₂ (fun n F => g.Computes n [m] F) ns ((List.range size).map component) :=
    List.forall₂_map_right_iff.2 (hns.imp fun n q h => h.2.2)
  refine ⟨hn.1, hn.2.1, (hn.2.2.comp hne hall).congr fun xs hxs => ?_⟩
  obtain ⟨x, _, rfl, hx, hnil⟩ := List.map_eq_cons_iff.1 hxs
  obtain rfl := List.map_eq_nil_iff.1 hnil
  rw [List.map_map, ← hm, ← hx]
  change ((List.range x.length).map fun q => [x.getD q Scalar.zero]).flatten = x
  rw [← List.flatMap_def, ← List.map_eq_flatMap, NDArray.map_getD_range]

end Graph

section

variable [Scalar.Exact α] {params : Params α} (hg : g.Constructed) (hf : g.Uniform f size)
  (hne : Shape.size f.shape ≠ 0) (hsize : size ≠ 0)
  (hp : params.get? "axis" = some (.int axis))

include hg hf hne hsize hp

/-- A bundle split again along its axis. -/
theorem unbundle_of_bundle (haxis : axis < f.rank)
    (hlt : f.axisLength axis * size < wordCount) :
    (Registry.builtin.dispatch .method "bundle" [.fold f] params).Yields g fun g₁ x =>
      ∃ b : Fold, x = .fold b ∧ b.shape = f.shape.eraseIdx axis ∧
        g₁.Uniform b (f.axisLength axis * size) ∧
        (Shape.size f.shape * size < entryLimit →
          (Registry.builtin.dispatch .method "unbundle" [.fold b] params).Yields g₁ fun g₂ x =>
            ∃ u : Fold, x = .fold u ∧
              u.shape = (f.shape.eraseIdx axis).insertIdx axis (f.axisLength axis * size) ∧
              ∀ i k, Shape.Within i (f.shape.eraseIdx axis) → k < f.axisLength axis * size →
                g₂.Gives 1 [f.entry (i.insertIdx axis (k / size))] (component (k % size))
                  (u.entry (i.insertIdx axis k))) := by
  have hle := Shape.le_length_eraseIdx haxis
  have hplaces : Shape.size f.shape = Shape.size (f.shape.eraseIdx axis) * f.axisLength axis := by
    rw [← Shape.size_insertIdx hle, NDArray.axisLength, Shape.insertIdx_axis haxis]
  obtain ⟨hrest, hcount⟩ := Nat.mul_ne_zero_iff.1 (hplaces ▸ hne)
  refine (Builtin.bundle_yields hg hf haxis hcount hsize hlt hp).imp fun x g₁ hg₁ he₁ h => ?_
  obtain ⟨b, rfl, hb, hgives⟩ := h
  have huniform : g₁.Uniform b (f.axisLength axis * size) :=
    fun i hi => (hgives i (hb ▸ hi)).placed
  refine ⟨b, rfl, hb, huniform, fun hroom => ?_⟩
  rw [hplaces, Nat.mul_assoc, ← hb] at hroom
  have hbaxis : axis ≤ b.shape.length := hb ▸ hle
  refine (Builtin.unbundle_yields hg₁ huniform (hb ▸ hrest) (Nat.mul_ne_zero hcount hsize) hroom hp
    hbaxis).imp fun x g₂ hg₂ he₂ h => ?_
  obtain ⟨u, rfl, hu, hcomponents⟩ := h
  rw [hb] at hu hcomponents
  refine ⟨u, rfl, hu, fun i k hi hk => ?_⟩
  have hplace : (f.lane axis i)[k / size]? = some (f.entry (i.insertIdx axis (k / size))) := by
    have hlt : k / size < f.axisLength axis := Nat.div_lt_of_lt_mul (by rwa [Nat.mul_comm])
    rw [NDArray.lane, List.getElem?_map, List.getElem?_range hlt, Option.map_some]
  have hlane₁ := (hf.later he₁).lane haxis hi
  have hlane₂ := (hf.later (he₁.trans he₂)).lane haxis hi
  exact (hcomponents i k hi hk).component_of_bundle
    ((hgives i hi).later he₂ fun m hm => (hlane₁ m hm).1) (fun m hm => (hlane₂ m hm).2) hsize hplace

/-- Components bundled again along their axis. -/
theorem bundle_of_unbundle (haxis : axis ≤ f.rank) (hlt : Shape.size f.shape * size < entryLimit) :
    (Registry.builtin.dispatch .method "unbundle" [.fold f] params).Yields g fun g₁ x =>
      ∃ u : Fold, x = .fold u ∧ u.shape = f.shape.insertIdx axis size ∧ g₁.Uniform u 1 ∧
        (Registry.builtin.dispatch .method "bundle" [.fold u] params).Yields g₁ fun g₂ x =>
          ∃ b : Fold, x = .fold b ∧ b.shape = f.shape ∧
            ∀ i, Shape.Within i f.shape → g₂.Gives size [f.entry i] (·.headD []) (b.entry i) := by
  refine (Builtin.unbundle_yields hg hf hne hsize hlt hp haxis).imp fun x g₁ hg₁ he₁ h => ?_
  obtain ⟨u, rfl, hu, hcomponents⟩ := h
  have huniform : g₁.Uniform u 1 :=
    .of_insertIdx hu haxis fun i q hi hq => (hcomponents i q hi hq).placed
  have huaxis : axis < u.rank := by
    rw [NDArray.rank, hu, List.length_insertIdx_of_le_length haxis]
    exact Nat.lt_succ_of_le haxis
  have hucount : u.axisLength axis = size := by
    have haxis' : axis ≤ f.shape.length := haxis
    rw [NDArray.axisLength, hu, List.getD_eq_getElem?_getD, List.getElem?_insertIdx_self,
      if_pos haxis', Option.getD_some]
  have herase : u.shape.eraseIdx axis = f.shape := by
    rw [hu, List.eraseIdx_insertIdx_self]
  have hword : u.axisLength axis * 1 < wordCount := by
    have hle : size ≤ Shape.size f.shape * size := Nat.le_mul_of_pos_left _ (Nat.pos_of_ne_zero hne)
    have hwords : entryLimit < wordCount := by decide
    omega
  refine ⟨u, rfl, hu, huniform, (Builtin.bundle_yields hg₁ huniform huaxis (hucount ▸ hsize)
    Nat.one_ne_zero hword hp).imp fun x g₂ hg₂ he₂ h => ?_⟩
  obtain ⟨b, rfl, hb, hgives⟩ := h
  rw [herase, hucount, Nat.mul_one] at hgives
  refine ⟨b, rfl, hb.trans herase, fun i hi => ?_⟩
  obtain ⟨hin, hs⟩ := hf i hi
  have hsame := he₁.trans he₂
  refine (hgives i hi).bundle_of_components ((hsame.sizeOf hin).trans hs) hsize ?_
  rw [NDArray.lane, hucount, List.forall₂_map_left_iff, List.forall₂_same]
  intro q hq
  refine (hcomponents i q hi (List.mem_range.1 hq)).later he₂ (List.forall_mem_singleton.2 ?_)
  exact Nat.lt_of_lt_of_le hin he₁.size

end

/-- Bundling along an axis and unbundling along it take each other back, as long as the size of a
bundle is a word and there is room for a node for each component. -/
theorem bundle_unbundle_inverse [Scalar.Exact α] {g : Graph α} (hg : g.Constructed) {f : Fold}
    {size axis : Nat} {params : Params α} (hne : Shape.size f.shape ≠ 0)
    (hf : g.Uniform f size) (hp : params.get? "axis" = some (.int axis)) :
    (axis < f.rank → f.axisLength axis * size < wordCount →
      (Registry.builtin.dispatch .method "bundle" [.fold f] params).Yields g fun g₁ x =>
        ∃ b : Fold, x = .fold b ∧ b.shape = f.shape.eraseIdx axis ∧
          g₁.Uniform b (f.axisLength axis * size) ∧
          (Shape.size f.shape * size < entryLimit →
            (Registry.builtin.dispatch .method "unbundle" [.fold b] params).Yields g₁ fun g₂ x =>
              ∃ u : Fold, x = .fold u ∧ u.shape = f.shape.set axis (f.axisLength axis * size) ∧
                g₂.Uniform u 1 ∧
                (∀ i k, Shape.Within i (f.shape.eraseIdx axis) → k < f.axisLength axis * size →
                  g₂.Computes (u.entry (i.insertIdx axis k))
                    [f.entry (i.insertIdx axis (k / size))] (component (k % size))) ∧
                (size = 1 → u.shape = f.shape ∧ ∀ i, Shape.Within i f.shape →
                  g₂.Computes (u.entry i) [f.entry i] (·.headD [])))) ∧
    (axis ≤ f.rank → Shape.size f.shape * size < entryLimit →
      (Registry.builtin.dispatch .method "unbundle" [.fold f] params).Yields g fun g₁ x =>
        ∃ u : Fold, x = .fold u ∧ u.shape = f.shape.insertIdx axis size ∧ g₁.Uniform u 1 ∧
          (Registry.builtin.dispatch .method "bundle" [.fold u] params).Yields g₁ fun g₂ x =>
            ∃ b : Fold, x = .fold b ∧ b.shape = f.shape ∧ g₂.Uniform b size ∧
              ∀ i, Shape.Within i f.shape → g₂.Computes (b.entry i) [f.entry i] (·.headD [])) := by
  have hsize : size ≠ 0 := by
    obtain ⟨hlt, hs⟩ := hf _ (Shape.within_unravel (Nat.pos_of_ne_zero hne))
    exact hs ▸ hg.positive hlt
  refine ⟨fun haxis hlt => ?_, fun haxis hlt => ?_⟩
  · refine (unbundle_of_bundle hg hf hne hsize hp haxis hlt).imp fun x g₁ hg₁ he₁ h => ?_
    obtain ⟨b, rfl, hb, huniform, hsplit⟩ := h
    refine ⟨b, rfl, hb, huniform, fun hroom => (hsplit hroom).imp fun x g₂ hg₂ he₂ h => ?_⟩
    obtain ⟨u, rfl, hu, hcomponents⟩ := h
    have hle := Shape.le_length_eraseIdx haxis
    refine ⟨u, rfl, hu.trans (List.insertIdx_eraseIdx_self (Nat.ne_of_lt haxis) _),
      .of_insertIdx hu hle fun i k hi hk => (hcomponents i k hi hk).placed,
      fun i k hi hk => (hcomponents i k hi hk).2.2, ?_⟩
    rintro rfl
    rw [Nat.mul_one, NDArray.axisLength, Shape.insertIdx_axis haxis] at hu
    refine ⟨hu, fun i hi => ?_⟩
    have hone := (hf.later (he₁.trans he₂) i hi).2
    rw [← Shape.insertIdx_axis haxis] at hi
    obtain ⟨j, q, rfl, hj, hq⟩ := Shape.exists_insertIdx hle hi
    have hvalue := (hcomponents j q hj ((Nat.mul_one _).symm ▸ hq)).2.2
    rw [Nat.div_one, Nat.mod_one] at hvalue
    refine hvalue.congr fun xs hxs => ?_
    obtain ⟨x, _, rfl, hx, -⟩ := List.map_eq_cons_iff.1 hxs
    obtain ⟨y, rfl⟩ := List.length_eq_one_iff.1 (hx.trans hone)
    rfl
  · refine (bundle_of_unbundle hg hf hne hsize hp haxis hlt).imp fun x g₁ hg₁ he₁ h => ?_
    obtain ⟨u, rfl, hu, huniform, hjoined⟩ := h
    refine ⟨u, rfl, hu, huniform, hjoined.imp fun x g₂ hg₂ he₂ h => ?_⟩
    obtain ⟨b, rfl, hb, hgives⟩ := h
    exact ⟨b, rfl, hb, fun i hi => (hgives i (hb ▸ hi)).placed, fun i hi => (hgives i hi).2.2⟩

/-- Two sources of two numbers each. -/
def twoPairs : Build ℚ Node := do
  discard <| stimulus (.constant [1, 2])
  stimulus (.constant [3, 4])

def pairs : Fold := ⟨[2], #v[⟨0⟩, ⟨1⟩]⟩

theorem twoPairs_constructed : twoPairs.graph.Constructed := by
  have hall : ∀ k : BuiltinKind ℚ, (fun _ => True) k.element := fun _ => trivial
  have hk : Build.Keeps (fun _ => True) twoPairs :=
    ((Build.keeps_stimulus hall _).bind fun _ => Build.keeps_pure _).bind fun _ =>
      Build.keeps_stimulus hall _
  exact hk.constructed

/-- The pairs in one node, and split again. -/
def pairsSplit : Build ℚ (Operand ℚ) := do
  let b ← Operation.bundle Registry.builtin.dispatch (.fold pairs) 0
  Operation.unbundle Registry.builtin.dispatch b 0

/-- The third number of the pairs, realized on an empty network. -/
def thirdNumber (g : Graph ℚ) : Except RealizeError Handle × Realization ℚ (Network ℚ) :=
  (make Target.network g Defaults.standard ⟨5⟩).run (.start (.empty none))

theorem twoPairs_restored :
    twoPairs.graph.Constructed ∧ Shape.size pairs.shape ≠ 0 ∧ twoPairs.graph.Uniform pairs 2 ∧
    (∃ u g r v, pairsSplit.run twoPairs.graph = .ok (.fold u, g) ∧ u.shape = [4] ∧ g.Uniform u 1 ∧
      u.entry [2] = ⟨5⟩ ∧ Usage Defaults.standard g r ∧ r.built ⟨5⟩ = some ⟨3, 1⟩ ∧
      r.target.Observed v ∧ v.of 3 = [3]) ∧
    ∃ u g₁ b g₂, (Operation.unbundle Registry.builtin.dispatch (.fold pairs) 1).run twoPairs.graph =
        .ok (.fold u, g₁) ∧ u.shape = [2, 2] ∧
      (Operation.bundle Registry.builtin.dispatch (.fold u) 1).run g₁ = .ok (.fold b, g₂) ∧
      b.shape = [2] ∧ g₂.Uniform b 2 := by
  have hg := twoPairs_constructed
  have hne : Shape.size pairs.shape ≠ 0 := by decide
  have hf : twoPairs.graph.Uniform pairs 2 := Graph.uniform_iff.2 (by decide +kernel)
  refine ⟨hg, hne, hf, ?_, ?_⟩
  · have hp : (Operation.wordAxis (α := ℚ) 0).get? "axis" = some (.int (0 : Nat)) := rfl
    obtain ⟨hjoin, -⟩ := bundle_unbundle_inverse hg hne hf hp
    obtain ⟨_, g₁, hrun₁, -, he₁, b, rfl, -, -, hsplit⟩ := hjoin (by decide) (by decide)
    obtain ⟨_, g₂, hrun₂, hg₂, he₂, u, rfl, hu, huniform, hvalues, -⟩ := hsplit (by decide)
    have hrun : pairsSplit.run twoPairs.graph = .ok (.fold u, g₂) :=
      bind_ok.2 ⟨_, g₁, hrun₁, hrun₂⟩
    have hentry : (fun p => (NDArray.entry · [2]) <$> p.1.toFold) <$>
        pairsSplit.run twoPairs.graph = .ok (.ok ⟨5⟩) := by decide +kernel
    have hmade : (fun p => (thirdNumber p.2).1) <$> pairsSplit.run twoPairs.graph =
        .ok (.ok ⟨3, 1⟩) := by decide +kernel
    have hstep : (fun p => (fun s => s.step.1) <$>
        Backend.cpu.engine.build (thirdNumber p.2).2.target 1) <$>
          pairsSplit.run twoPairs.graph = .ok (.ok (.ok ())) := by decide +kernel
    rw [hrun] at hentry hmade hstep
    have hentry : u.entry [2] = ⟨5⟩ := Except.ok.inj (Except.ok.inj hentry)
    have hmade : thirdNumber g₂ = (.ok ⟨3, 1⟩, (thirdNumber g₂).2) :=
      Prod.ext (Except.ok.inj hmade) rfl
    obtain ⟨husage, hbuilt, v, hv⟩ := hg₂.observed hmade (Except.ok.inj hstep)
    have hsecond : g₂.Computes ⟨1⟩ [] fun _ => [3, 4] :=
      Graph.computes_constant ((he₁.trans he₂).record? rfl)
    have hthird : g₂.Computes ⟨5⟩ [⟨1⟩] (component 0) := hentry ▸ hvalues [] 2 trivial (by decide)
    obtain ⟨_, _, -, hdirect, -, hvalue⟩ := hthird.comp nofun (.cons hsecond .nil) _ g₂ _ _
      (.refl g₂) husage hbuilt
    exact ⟨u, g₂, _, v, hrun, hu, huniform, hentry, husage, hbuilt, hv, (hvalue hdirect v hv).2⟩
  · have hp : (Operation.wordAxis (α := ℚ) 1).get? "axis" = some (.int (1 : Nat)) := rfl
    obtain ⟨-, hsplit⟩ := bundle_unbundle_inverse hg hne hf hp
    obtain ⟨_, g₁, hrun₁, -, -, u, rfl, hu, -, hjoin⟩ := hsplit (by decide) (by decide)
    obtain ⟨_, g₂, hrun₂, -, -, b, rfl, hb, huniform, -⟩ := hjoin
    exact ⟨u, g₁, b, g₂, hrun₁, hu, hrun₂, hb, huniform⟩

/-- A number doubled into a vector, time after time. -/
def doublings : Nat → Build ℚ Node
  | 0 => Build.stimulus (.constant [1])
  | k + 1 => do Build.decode (← doublings k) (fun xs => xs ++ xs) (some (2 ^ (k + 1))) .empty

/-- Every doubling succeeds, on a graph that puts out as many ones as it says in every step. -/
theorem doublings_run (k : Nat) : ∃ (n : Node) (g : Graph ℚ) (value : Nat → List ℚ),
    (doublings k).run .empty = .ok (n, g) ∧ g.Constructed ∧ g.Steady value ∧
      g.Carries value n (List.replicate (2 ^ k) 1) := by
  induction k with
  | zero =>
    have hempty : (Graph.empty : Graph ℚ).Constructed := ⟨[], .empty⟩
    obtain ⟨n, g, hrun, hg, -⟩ := Build.stimulus_makes hempty (List.cons_ne_nil (1 : ℚ) [])
    obtain ⟨value, hl, hn⟩ := Build.stimulus_steady (Graph.empty_steady fun _ => []) hrun
    exact ⟨n, g, value, hrun, hg, hl.steady, hn⟩
  | succ k ih =>
    obtain ⟨m, g, value, hm, hg, hs, hcarries⟩ := ih
    have hdouble : 2 ^ k + 2 ^ k = 2 ^ (k + 1) := by rw [Nat.pow_succ, Nat.mul_two]
    have hpos : 2 ^ (k + 1) ≠ 0 := Nat.ne_of_gt (Nat.two_pow_pos (k + 1))
    obtain ⟨n, g', hrun, hg', -⟩ := Build.decode_makes hg hcarries.1 hpos (fun xs => xs ++ xs) .empty
    have hlength : (List.replicate (2 ^ k) (1 : ℚ) ++ List.replicate (2 ^ k) 1).length =
        2 ^ (k + 1) := by
      rw [List.length_append, List.length_replicate, hdouble]
    obtain ⟨value', hl, hn⟩ := Build.decode_steady hs hcarries hlength hrun
    rw [List.replicate_append_replicate, hdouble] at hn
    exact ⟨n, g', value', bind_ok.2 ⟨m, g, hm, hrun⟩, hg', hl.steady, hn⟩

/-- The same node in every place along one axis. -/
def copies (count : Nat) (n : Node) : Fold := .tabulate [count] fun _ => n

theorem copies_uniform {g : Graph ℚ} {n : Node} {size count : Nat} (hn : n.index < g.size)
    (hsize : g.sizeOf n = size) : g.Uniform (copies count n) size := by
  intro i hi
  have hentry : (copies count n).entry i = n := NDArray.entry_tabulate hi
  rw [hentry]
  exact ⟨hn, hsize⟩

open Realize in
/-- A graph that runs for any number of steps, and nodes of it whose numbers come to zero as a
word. -/
theorem doublings_bundle_refused :
    ∃ (n : Node) (g : Graph ℚ), (doublings 52).run .empty = .ok (n, g) ∧ g.Constructed ∧
      g.Uniform (copies (2 ^ 12) n) (2 ^ 52) ∧
      (∃ handles r, (makeFold Target.network g Defaults.standard (copies (2 ^ 12) n)).run
          (.start (.empty none)) = (.ok handles, r) ∧
        ∀ (b : Backend) (steps : Nat), ∃ s s' : Simulator ℚ,
          b.engine.build r.target 1 = .ok s ∧ s.run steps = (.ok (), s')) ∧
      (Operation.bundle Registry.builtin.dispatch (.fold (copies (2 ^ 12) n)) 0).run g =
        .error (.shape (.invalid (.emptyOutput "bundle"))) := by
  obtain ⟨n, g, value, hrun, hg, hs, hn, hvalue⟩ := doublings_run 52
  have hsize : g.sizeOf n = 2 ^ 52 := by
    rw [hs.sizeOf hn, hvalue, List.length_replicate]
  have huniform : g.Uniform (copies (2 ^ 12) n) (2 ^ 52) := copies_uniform hn hsize
  refine ⟨n, g, hrun, hg, huniform, ?_, ?_⟩
  · have hnodes : ∀ m ∈ (copies (2 ^ 12) n).toList, m.index < g.size :=
      fun m hm => (Graph.uniform_iff.1 huniform m hm).1
    obtain ⟨handles, r, hmake, -, ⟨out, hr⟩, -⟩ :=
      makeFold_steady hs hnodes (Realization.start_steady value none)
    refine ⟨handles, r, hmake, fun b steps => ?_⟩
    have hdt : Scalar.less Scalar.zero (1 : ℚ) = true := by decide
    have hfinite : Scalar.isFinite (1 : ℚ) = true := by decide
    obtain ⟨s, s', hb, hs', -⟩ := hr.steady.traces hr.reachable.wellFormed hdt hfinite b steps
    exact ⟨s, s', hb, hs'⟩
  · have hp : (Operation.wordAxis (α := ℚ) 0).get? "axis" = some (.int (0 : Nat)) := rfl
    have h0 : (0 : Nat) ∉ [2 ^ 12] := by decide
    have hzero : 2 ^ 12 * 2 ^ 52 % wordCount = 0 := by decide
    exact Builtin.bundle_refused hg huniform Nat.zero_lt_one h0 hzero hp

end SignalGraph
