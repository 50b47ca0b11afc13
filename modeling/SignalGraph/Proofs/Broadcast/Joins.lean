import Mathlib.Data.List.GetD
import Mathlib.Data.List.Induction
import Mathlib.Data.List.Perm.Basic
import SignalGraph.Dispatch.Numeric
import SignalGraph.Proofs.Arithmetic.Rational
import SignalGraph.Proofs.Dispatch.Positions

namespace SignalGraph

namespace Shape

/-- The longest rank of a list of shapes. -/
def maxRank (shapes : List Shape) : Nat := (shapes.map List.length).foldr max 0

/-- The first length other than 1, and 1 where there is none. -/
def common (lengths : List Nat) : Nat := (lengths.find? (· != 1)).getD 1

/-- The lengths other than 1 are all equal. -/
def Agree (lengths : List Nat) : Prop :=
  ∀ m ∈ lengths, ∀ n ∈ lengths, m ≠ 1 → n ≠ 1 → m = n

/-- The lengths that shapes have on an axis, with ones in front up to the longest rank. -/
def lengthsOn (shapes : List Shape) (axis : Nat) : List Nat :=
  shapes.map fun x => (padTo (maxRank shapes) x).getD axis 1

/-- A shape that has on every axis the length that a list of shapes agrees on. -/
structure Joins (shapes : List Shape) (s : Shape) : Prop where
  rank : s.length = maxRank shapes
  agree : ∀ axis < maxRank shapes, Agree (lengthsOn shapes axis)
  common : ∀ axis < maxRank shapes, s[axis]? = some (common (lengthsOn shapes axis))

/-- The length of an axis counted from the last one, and 1 where there is no such axis. -/
def lengthAt (s : Shape) (k : Nat) : Nat := s.reverse.getD k 1

theorem lengthAt_of_le {s : Shape} {k : Nat} (h : s.length ≤ k) : lengthAt s k = 1 := by
  rw [lengthAt, List.getD_eq_default]
  rwa [List.length_reverse]

theorem getD_eq_lengthAt {s : Shape} {r axis : Nat} (hr : s.length = r) (h : axis < r) :
    s.getD axis 1 = lengthAt s (r - 1 - axis) := by
  subst hr
  have hk : s.length - 1 - axis < s.length := by omega
  have hback : s.length - 1 - (s.length - 1 - axis) = axis := by omega
  rw [lengthAt, List.getD_eq_getElem?_getD, List.getD_eq_getElem?_getD, List.getElem?_reverse hk,
    hback]

/-- Ones in front change no length. -/
theorem lengthAt_padTo (r : Nat) (s : Shape) (k : Nat) :
    lengthAt (padTo r s) k = lengthAt s k := by
  rw [lengthAt, padTo, List.reverse_append, List.reverse_replicate]
  by_cases hk : k < s.length
  · rw [List.getD_append _ _ _ _ (by rwa [List.length_reverse]), lengthAt]
  · rw [List.getD_append_right _ _ _ _ (by rw [List.length_reverse]; omega),
      lengthAt_of_le (Nat.le_of_not_lt hk)]
    rw [List.getD_eq_getElem?_getD, List.getElem?_replicate]
    split <;> rfl

theorem length_padTo {r : Nat} {s : Shape} (h : s.length ≤ r) : (padTo r s).length = r := by
  simp only [padTo, List.length_append, List.length_replicate]
  omega

theorem ext_lengthAt {s t : Shape} (hl : s.length = t.length)
    (h : ∀ k, lengthAt s k = lengthAt t k) : s = t := by
  refine List.ext_getElem hl fun axis hs ht => ?_
  have hs' : axis < t.length := ht
  have hget : s.getD axis 1 = t.getD axis 1 := by
    rw [getD_eq_lengthAt hl hs', getD_eq_lengthAt rfl ht, h]
  simpa [List.getD_eq_getElem?_getD, hs, ht] using hget

theorem length_le_maxRank {shapes : List Shape} {x : Shape} (h : x ∈ shapes) :
    x.length ≤ maxRank shapes := by
  induction shapes with
  | nil => cases h
  | cons y shapes ih =>
    rcases List.mem_cons.1 h with rfl | hx
    · exact Nat.le_max_left _ _
    · exact (ih hx).trans (Nat.le_max_right _ _)

theorem maxRank_append (xs ys : List Shape) :
    maxRank (xs ++ ys) = max (maxRank xs) (maxRank ys) := by
  induction xs with
  | nil => exact (Nat.zero_max _).symm
  | cons x xs ih => exact (congrArg (max x.length) ih).trans (Nat.max_assoc _ _ _).symm

/-- Lengths whose axis is counted from the last one. -/
theorem lengthsOn_eq {shapes : List Shape} {axis : Nat} (h : axis < maxRank shapes) :
    lengthsOn shapes axis = shapes.map (lengthAt · (maxRank shapes - 1 - axis)) := by
  refine List.map_congr_left fun x hx => ?_
  rw [getD_eq_lengthAt (length_padTo (length_le_maxRank hx)) h, lengthAt_padTo]

theorem common_cases (lengths : List Nat) : common lengths = 1 ∨ common lengths ∈ lengths := by
  cases h : lengths.find? (· != 1) with
  | none => exact .inl (by rw [common, h]; rfl)
  | some n => exact .inr (by rw [common, h]; exact List.mem_of_find?_eq_some h)

/-- Lengths that agree are 1 or the common one. -/
theorem Agree.eq_common {lengths : List Nat} (h : Agree lengths) {n : Nat} (hn : n ∈ lengths)
    (h1 : n ≠ 1) : n = common lengths := by
  cases hf : lengths.find? (· != 1) with
  | none => exact absurd (List.find?_eq_none.1 hf n hn) (by simpa using h1)
  | some m =>
    have hm : m ≠ 1 := by simpa using List.find?_some hf
    rw [common, hf]
    exact h n hn m (List.mem_of_find?_eq_some hf) h1 hm

/-- A length that each of some lengths is stretched to, and the least such. -/
structure IsCommon (lengths : List Nat) (n : Nat) : Prop where
  reached : ∀ m ∈ lengths, m = 1 ∨ m = n
  attained : n = 1 ∨ n ∈ lengths

theorem isCommon_iff {lengths : List Nat} {n : Nat} :
    IsCommon lengths n ↔ Agree lengths ∧ n = common lengths := by
  constructor
  · rintro ⟨hall, hn⟩
    have hagree : Agree lengths := fun a ha b hb ha1 hb1 =>
      ((hall a ha).resolve_left ha1).trans ((hall b hb).resolve_left hb1).symm
    refine ⟨hagree, ?_⟩
    by_cases hn1 : n = 1
    · rcases common_cases lengths with h1 | hmem
      · exact hn1.trans h1.symm
      · rcases hall _ hmem with h1 | he
        · exact hn1.trans h1.symm
        · exact he.symm
    · exact hagree.eq_common (hn.resolve_left hn1) hn1
  · rintro ⟨h, rfl⟩
    exact ⟨fun m hm => or_iff_not_imp_left.2 fun h1 => h.eq_common hm h1, common_cases lengths⟩

theorem IsCommon.unique {lengths : List Nat} {m n : Nat} (hm : IsCommon lengths m)
    (hn : IsCommon lengths n) : m = n :=
  (isCommon_iff.1 hm).2.trans (isCommon_iff.1 hn).2.symm

theorem Agree.mono {xs ys : List Nat} (h : Agree ys) (hs : ∀ n ∈ xs, n ∈ ys) : Agree xs :=
  fun a ha b hb => h a (hs a ha) b (hs b hb)

/-- Lengths in two lots have a common length when the common lengths of the lots do. -/
theorem isCommon_append {xs ys : List Nat} {n : Nat} :
    IsCommon (xs ++ ys) n ↔ ∃ a b, IsCommon xs a ∧ IsCommon ys b ∧ IsCommon [a, b] n := by
  constructor
  · intro h
    have hagree := (isCommon_iff.1 h).1
    have hx := isCommon_iff.2 ⟨hagree.mono fun m hm => List.mem_append_left ys hm, rfl⟩
    have hy := isCommon_iff.2 ⟨hagree.mono fun m hm => List.mem_append_right xs hm, rfl⟩
    have lot : ∀ {zs : List Nat} {c : Nat}, IsCommon zs c → (∀ m ∈ zs, m ∈ xs ++ ys) →
        c = 1 ∨ c = n := fun hz hs =>
      hz.attained.elim .inl fun hmem => h.reached _ (hs _ hmem)
    refine ⟨common xs, common ys, hx, hy, ?_, ?_⟩
    · intro m hm
      rcases List.mem_pair.1 hm with rfl | rfl
      · exact lot hx fun m hm => List.mem_append_left ys hm
      · exact lot hy fun m hm => List.mem_append_right xs hm
    · refine or_iff_not_imp_left.2 fun hn1 => ?_
      rcases List.mem_append.1 (h.attained.resolve_left hn1) with hmem | hmem
      · exact List.mem_pair.2 (.inl ((hx.reached n hmem).resolve_left hn1))
      · exact List.mem_pair.2 (.inr ((hy.reached n hmem).resolve_left hn1))
  · rintro ⟨a, b, hx, hy, hab⟩
    have lot : ∀ {zs : List Nat} {c : Nat}, IsCommon zs c → c ∈ [a, b] → ∀ m ∈ zs, m = 1 ∨ m = n := by
      intro zs c hz hc m hm
      rcases hz.reached m hm with h1 | rfl
      · exact .inl h1
      · exact hab.reached m hc
    constructor
    · intro m hm
      rcases List.mem_append.1 hm with hm | hm
      · exact lot hx (by simp) m hm
      · exact lot hy (by simp) m hm
    · refine or_iff_not_imp_left.2 fun hn1 => ?_
      rcases List.mem_pair.1 (hab.attained.resolve_left hn1) with rfl | rfl
      · exact List.mem_append_left ys (hx.attained.resolve_left hn1)
      · exact List.mem_append_right xs (hy.attained.resolve_left hn1)

theorem isCommon_pair {a b n : Nat} :
    IsCommon [a, b] n ↔ (a = 1 ∨ a = n) ∧ (b = 1 ∨ b = n) ∧ (n = 1 ∨ n = a ∨ n = b) :=
  ⟨fun h => ⟨h.reached a (by simp), h.reached b (by simp), by simpa using h.attained⟩,
    fun h => ⟨by simpa using ⟨h.1, h.2.1⟩, by simpa using h.2.2⟩⟩

theorem joinLength_eq_some {a b n : Nat} : joinLength a b = some n ↔ IsCommon [a, b] n := by
  rw [isCommon_pair, joinLength]
  split
  · rw [Option.some.injEq]
    omega
  split
  · rw [Option.some.injEq]
    omega
  split
  · rw [Option.some.injEq]
    omega
  · simp only [reduceCtorEq, false_iff]
    omega

/-- The shape that a list of shapes would be broadcast to. -/
def joined (shapes : List Shape) : Shape :=
  (List.range (maxRank shapes)).map fun axis => common (lengthsOn shapes axis)

theorem length_joined (shapes : List Shape) : (joined shapes).length = maxRank shapes := by
  rw [joined, List.length_map, List.length_range]

theorem joins_joined {shapes : List Shape}
    (h : ∀ axis < maxRank shapes, Agree (lengthsOn shapes axis)) : Joins shapes (joined shapes) :=
  ⟨length_joined shapes, h, fun axis ha => by simp [joined, ha]⟩

theorem joins_iff_axes {shapes : List Shape} {s : Shape} :
    Joins shapes s ↔ s.length = maxRank shapes ∧
      ∀ axis < maxRank shapes, IsCommon (lengthsOn shapes axis) (s.getD axis 1) := by
  constructor
  · rintro ⟨hrank, hagree, hcommon⟩
    refine ⟨hrank, fun axis ha => isCommon_iff.2 ⟨hagree axis ha, ?_⟩⟩
    rw [List.getD_eq_getElem?_getD, hcommon axis ha]
    rfl
  · rintro ⟨hrank, hall⟩
    refine ⟨hrank, fun axis ha => (isCommon_iff.1 (hall axis ha)).1, fun axis ha => ?_⟩
    rw [← (isCommon_iff.1 (hall axis ha)).2, List.getD_eq_getElem?_getD,
      List.getElem?_eq_getElem (hrank.symm ▸ ha)]
    rfl

/-- The same with axes counted from the last one, those that no shape has included. -/
theorem joins_iff {shapes : List Shape} {s : Shape} :
    Joins shapes s ↔ s.length = maxRank shapes ∧
      ∀ k, IsCommon (shapes.map (lengthAt · k)) (lengthAt s k) := by
  rw [joins_iff_axes]
  refine and_congr_right fun hrank => ⟨fun hall k => ?_, fun hall axis ha => ?_⟩
  · by_cases hk : k < maxRank shapes
    · have ha : maxRank shapes - 1 - k < maxRank shapes := by omega
      have hback : maxRank shapes - 1 - (maxRank shapes - 1 - k) = k := by omega
      have hcommon := hall _ ha
      rwa [lengthsOn_eq ha, getD_eq_lengthAt hrank ha, hback] at hcommon
    · have hone : ∀ n ∈ shapes.map (lengthAt · k), n = 1 := by
        intro n hn
        obtain ⟨x, hx, rfl⟩ := List.mem_map.1 hn
        exact lengthAt_of_le ((length_le_maxRank hx).trans (Nat.le_of_not_lt hk))
      rw [lengthAt_of_le (hrank.symm ▸ Nat.le_of_not_lt hk)]
      exact ⟨fun n hn => .inl (hone n hn), .inl rfl⟩
  · rw [lengthsOn_eq ha, getD_eq_lengthAt hrank ha]
    exact hall _

theorem Joins.unique {shapes : List Shape} {s t : Shape} (hs : Joins shapes s)
    (ht : Joins shapes t) : s = t :=
  ext_lengthAt (hs.rank.trans ht.rank.symm) fun k =>
    ((joins_iff.1 hs).2 k).unique ((joins_iff.1 ht).2 k)

theorem joins_nil {s : Shape} : Joins [] s ↔ s = [] := by
  constructor
  · intro h
    exact List.eq_nil_of_length_eq_zero h.rank
  · rintro rfl
    exact ⟨rfl, fun axis h => absurd h (Nat.not_lt_zero axis),
      fun axis h => absurd h (Nat.not_lt_zero axis)⟩

theorem joins_one {s t : Shape} : Joins [s] t ↔ t = s := by
  have self : Joins [s] s := joins_iff.2 ⟨(Nat.max_zero _).symm, fun k =>
    ⟨fun n hn => .inr (List.mem_singleton.1 hn), .inr List.mem_cons_self⟩⟩
  exact ⟨fun h => h.unique self, fun h => h ▸ self⟩

/-- The order of the shapes is of no importance. -/
theorem joins_perm {xs ys : List Shape} (h : xs.Perm ys) {s : Shape} : Joins xs s ↔ Joins ys s := by
  have swap : ∀ {xs ys : List Shape}, xs.Perm ys → Joins xs s → Joins ys s := by
    intro xs ys h hx
    obtain ⟨hrank, hall⟩ := joins_iff.1 hx
    refine joins_iff.2 ⟨?_, fun k => ?_⟩
    · rw [hrank]
      exact (h.map List.length).foldr_eq 0
    · have hk := h.map (lengthAt · k)
      exact ⟨fun n hn => (hall k).reached n (hk.mem_iff.2 hn),
        (hall k).attained.imp_right hk.mem_iff.1⟩
  exact ⟨swap h, swap h.symm⟩

/-- Shapes in two lots join when the joins of the lots do. -/
theorem joins_append {xs ys : List Shape} {u : Shape} :
    Joins (xs ++ ys) u ↔ ∃ s t, Joins xs s ∧ Joins ys t ∧ Joins [s, t] u := by
  constructor
  · intro h
    obtain ⟨hrank, hall⟩ := joins_iff.1 h
    have lot : ∀ {zs : List Shape}, (∀ z ∈ zs, z ∈ xs ++ ys) → Joins zs (joined zs) := by
      intro zs hz
      refine joins_joined fun axis ha => ?_
      rw [lengthsOn_eq ha]
      refine (isCommon_iff.1 (hall (maxRank zs - 1 - axis))).1.mono fun n hn => ?_
      obtain ⟨z, hmem, rfl⟩ := List.mem_map.1 hn
      exact List.mem_map_of_mem (hz z hmem)
    have hx := lot fun z => List.mem_append_left ys
    have hy := lot fun z => List.mem_append_right xs
    refine ⟨joined xs, joined ys, hx, hy, joins_iff.2 ⟨?_, fun k => ?_⟩⟩
    · rw [hrank, maxRank_append, ← hx.rank, ← hy.rank]
      simp [maxRank]
    · have hk := hall k
      rw [List.map_append] at hk
      obtain ⟨a, b, ha, hb, hab⟩ := isCommon_append.1 hk
      obtain rfl := ha.unique ((joins_iff.1 hx).2 k)
      obtain rfl := hb.unique ((joins_iff.1 hy).2 k)
      exact hab
  · rintro ⟨s, t, hs, ht, hu⟩
    refine joins_iff.2 ⟨?_, fun k => ?_⟩
    · rw [hu.rank, maxRank_append, ← hs.rank, ← ht.rank]
      simp [maxRank]
    · rw [List.map_append]
      exact isCommon_append.2
        ⟨_, _, (joins_iff.1 hs).2 k, (joins_iff.1 ht).2 k, (joins_iff.1 hu).2 k⟩

theorem joins_cons {x u : Shape} {xs : List Shape} :
    Joins (x :: xs) u ↔ ∃ s, Joins xs s ∧ Joins [x, s] u := by
  rw [← List.singleton_append, joins_append]
  constructor
  · rintro ⟨y, s, hy, hs, hu⟩
    obtain rfl := joins_one.1 hy
    exact ⟨s, hs, hu⟩
  · rintro ⟨s, hs, hu⟩
    exact ⟨x, s, joins_one.2 rfl, hs, hu⟩

theorem joins_flatten {lots : List (List Shape)} {u : Shape} :
    Joins lots.flatten u ↔ ∃ ss, List.Forall₂ Joins lots ss ∧ Joins ss u := by
  induction lots generalizing u with
  | nil => simp
  | cons xs lots ih =>
    rw [List.flatten_cons, joins_append]
    constructor
    · rintro ⟨s, t, hs, ht, hu⟩
      obtain ⟨ss, hss, ht⟩ := ih.1 ht
      exact ⟨s :: ss, .cons hs hss, joins_cons.2 ⟨t, ht, hu⟩⟩
    · rintro ⟨_, hall, hu⟩
      obtain ⟨s, ss, hs, hss, rfl⟩ := List.forall₂_cons_left_iff.1 hall
      obtain ⟨t, ht, hu⟩ := joins_cons.1 hu
      exact ⟨s, t, hs, ih.2 ⟨ss, hss, ht⟩, hu⟩

theorem zip_joinLength {xs ys zs : List Nat} (hl : xs.length = ys.length) :
    (List.zip xs ys).mapM (fun p => joinLength p.1 p.2) = some zs ↔
      zs.length = xs.length ∧ ∀ axis < xs.length,
        joinLength (xs.getD axis 1) (ys.getD axis 1) = some (zs.getD axis 1) := by
  induction xs generalizing ys zs with
  | nil => simp [eq_comm]
  | cons x xs ih =>
    cases ys with
    | nil => cases hl
    | cons y ys =>
        cases zs with
      | nil => simp [Option.bind_eq_some_iff]
      | cons z zs =>
        simp only [List.zip_cons_cons, List.mapM_cons, Option.bind_eq_bind, Option.bind_eq_some_iff,
          Option.pure_def, Option.some.injEq, List.cons.injEq, List.length_cons,
          Nat.add_right_cancel_iff]
        constructor
        · rintro ⟨_, hz, _, hzs, rfl, rfl⟩
          obtain ⟨hlen, hall⟩ := (ih (Nat.succ.inj hl)).1 hzs
          refine ⟨hlen, fun axis ha => ?_⟩
          cases axis with
          | zero => exact hz
          | succ axis => exact hall axis (Nat.lt_of_succ_lt_succ ha)
        · rintro ⟨hlen, hall⟩
          have hrest := (ih (Nat.succ.inj hl)).2
            ⟨hlen, fun axis ha => hall (axis + 1) (Nat.succ_lt_succ ha)⟩
          exact ⟨z, hall 0 (Nat.succ_pos _), zs, hrest, rfl, rfl⟩

theorem broadcast_eq_ok {s t u : Shape} : broadcast s t = .ok u ↔ Joins [s, t] u := by
  have hmax : maxRank [s, t] = max s.length t.length := congrArg (max s.length) (Nat.max_zero _)
  have hs := length_padTo (Nat.le_max_left s.length t.length)
  have ht := length_padTo (Nat.le_max_right s.length t.length)
  have hzip : broadcast s t = .ok u ↔ (List.zip (padTo (max s.length t.length) s)
      (padTo (max s.length t.length) t)).mapM (fun p => joinLength p.1 p.2) = some u := by
    rw [broadcast]
    split <;> simp_all
  rw [hzip, zip_joinLength (hs.trans ht.symm), hs, joins_iff_axes]
  simp only [lengthsOn, hmax, List.map_cons, List.map_nil, joinLength_eq_some]

theorem broadcastAll_append (xs : List Shape) (x : Shape) :
    broadcastAll (xs ++ [x]) = broadcastAll xs >>= fun s => broadcast s x := by
  rw [broadcastAll, broadcastAll, List.foldlM_append]
  refine congrArg (_ >>= ·) (funext fun s => ?_)
  rw [List.foldlM_cons]
  cases broadcast s x <;> rfl

/-- A list of shapes is broadcast to the shape that it joins to. -/
theorem broadcastAll_eq_ok {shapes : List Shape} {s : Shape} :
    broadcastAll shapes = .ok s ↔ Joins shapes s := by
  induction shapes using List.reverseRecOn generalizing s with
  | nil =>
    rw [joins_nil, broadcastAll, List.foldlM_nil, pure_eq_ok]
    exact eq_comm
  | append_singleton xs x ih =>
    rw [broadcastAll_append, bind_eq_ok, joins_append]
    constructor
    · rintro ⟨t, ht, hu⟩
      exact ⟨t, x, ih.1 ht, joins_one.2 rfl, broadcast_eq_ok.1 hu⟩
    · rintro ⟨t, y, ht, hy, hu⟩
      obtain rfl := joins_one.1 hy
      exact ⟨t, ih.2 ht, broadcast_eq_ok.2 hu⟩

/-- Shapes broadcast lot by lot, some lots before the others. -/
inductive Grouping where
  | shape (s : Shape)
  | group (parts : List Grouping)

namespace Grouping

/-- The shapes in order. -/
def shapes : Grouping → List Shape
  | shape s => [s]
  | group parts => parts.flatMap shapes

/-- What the groups are broadcast to, the inner ones first. -/
def broadcast : Grouping → Except ShapeError Shape
  | shape s => .ok s
  | group parts => do broadcastAll (← parts.mapM broadcast)

/-- However shapes are grouped, they are broadcast to the shape that they join to. -/
theorem broadcast_eq_ok (t : Grouping) {s : Shape} : t.broadcast = .ok s ↔ Joins t.shapes s := by
  fun_induction broadcast t generalizing s with
  | case1 x => rw [shapes, joins_one, Except.ok.injEq, eq_comm]
  | case2 parts ih =>
    rw [shapes, bind_eq_ok, List.flatMap_def, joins_flatten]
    refine exists_congr fun ss => and_congr ?_ broadcastAll_eq_ok
    rw [mapM_eq_ok, List.forall₂_map_left_iff]
    exact ⟨fun h => forall₂_imp_mem h fun p hp _ => (ih p hp).1,
      fun h => forall₂_imp_mem h fun p hp _ => (ih p hp).2⟩

end Grouping

theorem zip_all {xs ys : List Nat} (hl : xs.length = ys.length) :
    ((List.zip xs ys).all fun p => p.1 == p.2 || p.1 == 1) = true ↔
      ∀ axis < xs.length, xs.getD axis 1 = ys.getD axis 1 ∨ xs.getD axis 1 = 1 := by
  induction xs generalizing ys with
  | nil => simp
  | cons x xs ih =>
    cases ys with
    | nil => cases hl
    | cons y ys =>
      simp only [List.zip_cons_cons, List.all_cons, Bool.and_eq_true, Bool.or_eq_true, beq_iff_eq,
        ih (Nat.succ.inj hl), List.length_cons]
      constructor
      · rintro ⟨h, hall⟩ axis ha
        cases axis with
        | zero => exact h
        | succ axis => exact hall axis (Nat.lt_of_succ_lt_succ ha)
      · intro hall
        exact ⟨hall 0 (Nat.succ_pos _), fun axis ha => hall (axis + 1) (Nat.succ_lt_succ ha)⟩

/-- A shape is stretched to another where that has no fewer axes, the same lengths on those that
are not of length 1, and an addressable number of positions. -/
theorem spreads_iff {s t : Shape} :
    spreads s t = true ↔ addressable t = true ∧ s.length ≤ t.length ∧
      ∀ k, lengthAt s k = 1 ∨ lengthAt s k = lengthAt t k := by
  rw [spreads, Bool.and_eq_true, Bool.and_eq_true, decide_eq_true_eq, and_assoc]
  refine and_congr_right fun _ => and_congr_right fun hle => ?_
  have hl : (t.drop (t.length - s.length)).length = s.length := by
    rw [List.length_drop]
    omega
  rw [zip_all hl.symm]
  have back : ∀ axis < s.length, (t.drop (t.length - s.length)).getD axis 1 =
      lengthAt t (s.length - 1 - axis) := by
    intro axis ha
    have hplace : t.length - s.length + axis < t.length := by omega
    have hback : t.length - 1 - (t.length - s.length + axis) = s.length - 1 - axis := by omega
    rw [← hback, ← getD_eq_lengthAt rfl hplace, List.getD_eq_getElem?_getD, List.getElem?_drop,
      List.getD_eq_getElem?_getD]
  constructor
  · intro h k
    by_cases hk : k < s.length
    · have ha : s.length - 1 - k < s.length := by omega
      have hback : s.length - 1 - (s.length - 1 - k) = k := by omega
      have hk := h _ ha
      rwa [back _ ha, getD_eq_lengthAt rfl ha, hback, or_comm] at hk
    · exact .inl (lengthAt_of_le (Nat.le_of_not_lt hk))
  · intro h axis ha
    rw [back axis ha, getD_eq_lengthAt rfl ha, or_comm]
    exact h _

/-- Every shape is stretched to the join, whose positions have to be addressable. -/
theorem Joins.spreads_eq {shapes : List Shape} {s x : Shape} (h : Joins shapes s) (hx : x ∈ shapes) :
    spreads x s = addressable s := by
  have hle : x.length ≤ s.length := h.rank ▸ length_le_maxRank hx
  have hall : ∀ k, lengthAt x k = 1 ∨ lengthAt x k = lengthAt s k := fun k =>
    ((joins_iff.1 h).2 k).reached _ (List.mem_map_of_mem hx)
  rw [Bool.eq_iff_iff, spreads_iff]
  exact ⟨And.left, fun ha => ⟨ha, hle, hall⟩⟩

end Shape

variable {α : Type} [Scalar α]

/-- Operands are stretched to the shape that theirs join to, which has to be addressable. -/
theorem Operand.spreadCells_joins {operands : List (Operand α)} {s : Shape}
    (h : Shape.Joins (operands.map Operand.shape) s) (ha : Shape.addressable s = true) :
    Operand.spreadCells s operands =
      .ok (operands.map fun x => x.cells.gather s (Shape.restrict x.shape)) := by
  rw [Operand.spreadCells_eq_ok, List.forall₂_map_right_iff, List.forall₂_same]
  intro x hx
  exact ⟨(h.spreads_eq (List.mem_map_of_mem hx)).trans ha, rfl⟩

/-- Two arrays of numbers are joined position by position where their shapes are broadcast to an
addressable one. -/
theorem Numeric.zip_joins {f : α → α → α} {a b : NDArray α} {s : Shape}
    (h : Shape.broadcast a.shape b.shape = .ok s) (ha : Shape.addressable s = true) :
    ∃ c, Numeric.zip f a b = .ok c := by
  have hj := Shape.broadcast_eq_ok.1 h
  have hleft := (hj.spreads_eq List.mem_cons_self).trans ha
  have hright := (hj.spreads_eq (List.mem_cons_of_mem _ List.mem_cons_self)).trans ha
  simp only [Numeric.zip, h, NDArray.spread?_eq_some.2 ⟨hleft, rfl⟩,
    NDArray.spread?_eq_some.2 ⟨hright, rfl⟩]
  exact ⟨_, rfl⟩

theorem Numeric.apply_joins {name : String} {operands : List (Operand α)} {s : Shape}
    (h : Shape.broadcastAll ((operands.filterMap Operand.toNumeric?).map NDArray.shape) = .ok s)
    (ha : Shape.addressable s = true) (left right : Shape) :
    Numeric.apply name operands ≠ .error (.invalid (.cannotSpreadBoth left right)) := by
  unfold Numeric.apply
  split
  · simp
  · rename_i a b f hpair _
    rw [hpair, List.map_cons, List.map_cons, List.map_nil, Shape.broadcastAll_two] at h
    obtain ⟨c, hc⟩ := Numeric.zip_joins (f := f) h ha
    simp [hc]
  · nofun
  · nofun

/-- A list of shapes is broadcast to what its members agree on axis by axis, in any order and
grouping; each is stretched to that where its positions are addressable, so that operands with such
shapes are never refused for being stretched. -/
theorem broadcast_shapes_join (α : Type) [Scalar α] (shapes : List Shape) :
    (∀ s, Shape.broadcastAll shapes = .ok s ↔ Shape.Joins shapes s) ∧
      (∀ others : List Shape, others.Perm shapes → ∀ s,
        Shape.broadcastAll others = .ok s ↔ Shape.broadcastAll shapes = .ok s) ∧
      (∀ t : Shape.Grouping, t.shapes.Perm shapes → ∀ s,
        t.broadcast = .ok s ↔ Shape.broadcastAll shapes = .ok s) ∧
      ∀ s, Shape.broadcastAll shapes = .ok s →
        (∀ x ∈ shapes, Shape.spreads x s = Shape.addressable s) ∧
          (Shape.addressable s = true →
            (∀ operands : List (Operand α), operands.map Operand.shape = shapes →
              Operand.spreadCells s operands =
                .ok (operands.map fun x => x.cells.gather s (Shape.restrict x.shape))) ∧
            ∀ (name : String) (operands : List (Operand α)),
              (operands.filterMap Operand.toNumeric?).map NDArray.shape = shapes →
                ∀ left right, Numeric.apply name operands ≠
                  .error (.invalid (.cannotSpreadBoth left right))) := by
  refine ⟨fun s => Shape.broadcastAll_eq_ok, fun others h s => ?_, fun t h s => ?_, fun s hs => ?_⟩
  · rw [Shape.broadcastAll_eq_ok, Shape.broadcastAll_eq_ok, Shape.joins_perm h]
  · rw [t.broadcast_eq_ok, Shape.broadcastAll_eq_ok, Shape.joins_perm h]
  · have hj := Shape.broadcastAll_eq_ok.1 hs
    refine ⟨fun x hx => hj.spreads_eq hx, fun ha => ⟨?_, ?_⟩⟩
    · rintro operands rfl
      exact Operand.spreadCells_joins hj ha
    · rintro name operands rfl left right
      exact Numeric.apply_joins hs ha left right

/-- Three shapes of different ranks, one with an axis of length zero. -/
theorem broadcast_shapes_join_empty :
    Shape.broadcastAll [[2, 1, 0], [3, 1], [1]] = .ok [2, 3, 0] ∧
      Shape.broadcastAll [[1], [3, 1], [2, 1, 0]] = .ok [2, 3, 0] ∧
        (Shape.Grouping.group [.shape [2, 1, 0], .group [.shape [3, 1], .shape [1]]]).broadcast =
          .ok [2, 3, 0] ∧
        Shape.spreads [3, 1] [2, 3, 0] = true ∧
          ∀ left right, Numeric.apply "add" [.array (.tabulate [2, 1, 0] fun _ => 0),
            .array (.tabulate [3, 1] fun _ => 1), .array (.tabulate [1] fun _ => (2 : ℚ))] ≠
              .error (.invalid (.cannotSpreadBoth left right)) := by
  obtain ⟨hjoin, hperm, hgroup, hspread⟩ :=
    broadcast_shapes_join ℚ [[2, 1, 0], [3, 1], [1]]
  have hall : Shape.broadcastAll [[2, 1, 0], [3, 1], [1]] = .ok [2, 3, 0] := by decide
  obtain ⟨hstretch, hnever⟩ := hspread _ hall
  have hroom : Shape.addressable [2, 3, 0] = true := by decide
  refine ⟨hall, (hperm _ (by decide) _).2 hall, (hgroup _ ?_ _).2 hall, ?_, ?_⟩
  · simp [Shape.Grouping.shapes]
  · rw [hstretch [3, 1] (by decide), hroom]
  · exact (hnever hroom).2 "add" _ rfl

end SignalGraph
