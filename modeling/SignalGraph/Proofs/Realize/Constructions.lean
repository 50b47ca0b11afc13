import SignalGraph.Proofs.Graph.Constructors
import SignalGraph.Proofs.Realize.Values

namespace SignalGraph

variable {α β γ : Type} {g g' : Graph α}

theorem Graph.Constructed.positive (hg : g.Constructed) {n : Node} (hn : n.index < g.size) :
    g.sizeOf n ≠ 0 := by
  obtain ⟨opens, hg⟩ := hg
  exact hg.regular.positive hn

namespace Build

/-- What a construction on a constructed graph does: it succeeds, the graph that it leaves is
constructed and holds the old one, and its answer is as `Q` says. -/
def Yields (x : Build α β) (g : Graph α) (Q : Graph α → β → Prop) : Prop :=
  ∃ b g', x.run g = .ok (b, g') ∧ g'.Constructed ∧ g.Extends g' ∧ Q g' b

/-- What the construction of a node does: it succeeds, and the node has the given size and is as `Q`
says. -/
def Makes (x : Build α Node) (g : Graph α) (size : Nat) (Q : Graph α → Node → Prop) : Prop :=
  x.Yields g fun g' n => n.index < g'.size ∧ g'.sizeOf n = size ∧ Q g' n

theorem Keeps.constructed {x : Build α β} (hx : Keeps (fun _ => True) x) : x.graph.Constructed :=
  ⟨[], hx.grown⟩

theorem Keeps.yields {x : Build α β} {b : β} {Q : Graph α → β → Prop}
    (hx : Keeps (fun _ => True) x) (hg : g.Constructed) (hb : x.run g = .ok (b, g')) (hq : Q g' b) :
    x.Yields g Q := by
  obtain ⟨opens, hg⟩ := hg
  obtain ⟨hg', he⟩ := hx opens g g' b hg hb
  exact ⟨b, g', hb, ⟨opens, hg'⟩, he, hq⟩

namespace Yields

variable {P Q : Graph α → β → Prop} {R : Graph α → γ → Prop} {x : Build α β}

/-- A construction that leaves the graph as it is. -/
theorem of_run {b : β} (hg : g.Constructed) (hx : x.run g = .ok (b, g)) (hq : Q g b) :
    x.Yields g Q :=
  ⟨b, g, hx, hg, .refl g, hq⟩

theorem bind {f : β → Build α γ} (hx : x.Yields g Q)
    (hf : ∀ b g', g'.Constructed → g.Extends g' → Q g' b → (f b).Yields g' R) :
    (x >>= f).Yields g R := by
  obtain ⟨b, g₁, hb, hg₁, he₁, hq⟩ := hx
  obtain ⟨c, g₂, hc, hg₂, he₂, hr⟩ := hf b g₁ hg₁ he₁ hq
  exact ⟨c, g₂, bind_ok.2 ⟨b, g₁, hb, hc⟩, hg₂, he₁.trans he₂, hr⟩

/-- What comes behind a construction that leaves the graph as it is. -/
theorem after_run {f : β → Build α γ} {b : β} (hx : x.run g = .ok (b, g))
    (hf : (f b).Yields g R) : (x >>= f).Yields g R := by
  obtain ⟨c, g', hc, h⟩ := hf
  exact ⟨c, g', bind_ok.2 ⟨b, g, hx, hc⟩, h⟩

theorem imp (hx : x.Yields g P) (hpq : ∀ b g', g'.Constructed → g.Extends g' → P g' b → Q g' b) :
    x.Yields g Q := by
  obtain ⟨b, g', hb, hg', he, hp⟩ := hx
  exact ⟨b, g', hb, hg', he, hpq b g' hg' he hp⟩

theorem map {f : β → γ} (hx : x.Yields g fun g' b => R g' (f b)) : (f <$> x).Yields g R := by
  obtain ⟨b, g', hb, hg', he, hr⟩ := hx
  exact ⟨f b, g', map_ok.2 ⟨b, hb, rfl⟩, hg', he, hr⟩

/-- Constructions one after the other, where the answer of each is such as it was in all graphs that
come later. -/
theorem mapM {f : β → Build α γ} {S : β → Graph α → γ → Prop} {xs : List β} (hg : g.Constructed)
    (hlater : ∀ x ∈ xs, ∀ (g₁ g₂ : Graph α) (y : γ), g.Extends g₁ → g₁.Extends g₂ →
      S x g₁ y → S x g₂ y)
    (hf : ∀ x ∈ xs, ∀ g₁ : Graph α, g₁.Constructed → g.Extends g₁ → (f x).Yields g₁ (S x)) :
    (xs.mapM f).Yields g fun g' ys => List.Forall₂ (fun x y => S x g' y) xs ys := by
  suffices h : ∀ g₁ : Graph α, g₁.Constructed → g.Extends g₁ → (xs.mapM f).Yields g₁ fun g' ys =>
      List.Forall₂ (fun x y => S x g' y) xs ys from h g hg (.refl g)
  induction xs with
  | nil => exact fun g₁ hg₁ _ => .of_run hg₁ rfl .nil
  | cons x xs ih =>
    intro g₁ hg₁ he₁
    rw [List.mapM_cons]
    refine (hf x List.mem_cons_self g₁ hg₁ he₁).bind fun y g₂ hg₂ he₂ hy => ?_
    have hrest := ih (fun x hx => hlater x (List.mem_cons_of_mem _ hx))
      (fun x hx => hf x (List.mem_cons_of_mem _ hx)) g₂ hg₂ (he₁.trans he₂)
    refine hrest.bind fun ys g₃ hg₃ he₃ hys => .of_run hg₃ rfl (.cons ?_ hys)
    exact hlater x List.mem_cons_self g₂ g₃ y (he₁.trans he₂) he₃ hy

/-- A node for each index of a shape. -/
theorem tabulateM {s : Shape} {f : List Nat → Build α Node}
    {S : List Nat → Graph α → Node → Prop} (hg : g.Constructed)
    (hlater : ∀ i, Shape.Within i s → ∀ (g₁ g₂ : Graph α) (n : Node), g.Extends g₁ →
      g₁.Extends g₂ → S i g₁ n → S i g₂ n)
    (hf : ∀ i, Shape.Within i s → ∀ g₁ : Graph α, g₁.Constructed → g.Extends g₁ →
      (f i).Yields g₁ (S i)) :
    (NDArray.tabulateM s f).Yields g fun g' a =>
      a.shape = s ∧ ∀ i, Shape.Within i s → S i g' (a.entry i) := by
  have hwithin : ∀ p ∈ List.range (Shape.size s), Shape.Within (Shape.unravel s p) s :=
    fun p hp => Shape.within_unravel (List.mem_range.1 hp)
  obtain ⟨ns, g', hrun, hg', he, hall⟩ := mapM hg
    (S := fun p => S (Shape.unravel s p)) (fun p hp => hlater _ (hwithin p hp))
    fun p hp => hf _ (hwithin p hp)
  rw [← NDArray.toList_tabulateM] at hrun
  obtain ⟨a, ha, rfl⟩ := map_ok.1 hrun
  have hshape : a.shape = s := by
    obtain ⟨data, -, rfl⟩ := map_ok.1 ha
    rfl
  refine ⟨a, g', ha, hg', he, hshape, fun i hi => ?_⟩
  have hget := NDArray.toList_offset (a := a) (hshape ▸ hi)
  rw [hshape] at hget
  have hs := forall₂_getElem? hall (List.getElem?_range (Shape.offset_lt hi)) hget
  rwa [Shape.unravel_offset hi] at hs

end Yields

/-- A construction that fails, with an error as `E` says. -/
def Refuses (x : Build α β) (g : Graph α) (E : GraphError → Prop) : Prop :=
  ∃ e, E e ∧ x.run g = .error e

namespace Refuses

variable {E : GraphError → Prop} {x : Build α β}

theorem imp {D : GraphError → Prop} (hx : x.Refuses g D) (h : ∀ e, D e → E e) : x.Refuses g E := by
  obtain ⟨e, he, hrun⟩ := hx
  exact ⟨e, h e he, hrun⟩

theorem bind {f : β → Build α γ} (hx : x.Refuses g E) : (x >>= f).Refuses g E := by
  obtain ⟨e, he, hrun⟩ := hx
  refine ⟨e, he, ?_⟩
  rw [StateT.run_bind, hrun]
  rfl

theorem map {f : β → γ} (hx : x.Refuses g E) : (f <$> x).Refuses g E := by
  obtain ⟨e, he, hrun⟩ := hx
  exact ⟨e, he, by rw [StateT.run_map, hrun]; rfl⟩

theorem of_map {f : β → γ} (hx : (f <$> x).Refuses g E) : x.Refuses g E := by
  obtain ⟨e, he, hrun⟩ := hx
  refine ⟨e, he, ?_⟩
  rw [StateT.run_map] at hrun
  cases hx : x.run g with
  | ok p => simp [hx, Functor.map, Except.map] at hrun
  | error e' =>
    rw [hx] at hrun
    cases hrun
    rfl

theorem after_run {f : β → Build α γ} {b : β} (hx : x.run g = .ok (b, g)) (hf : (f b).Refuses g E) :
    (x >>= f).Refuses g E := by
  obtain ⟨e, he, hrun⟩ := hf
  refine ⟨e, he, ?_⟩
  rw [StateT.run_bind, hx]
  exact hrun

/-- What fails behind a construction that succeeds. -/
theorem after {f : β → Build α γ} {Q : Graph α → β → Prop} (hx : x.Yields g Q)
    (hf : ∀ b g', g'.Constructed → g.Extends g' → Q g' b → (f b).Refuses g' E) :
    (x >>= f).Refuses g E := by
  obtain ⟨b, g', hrun, hg', he, hq⟩ := hx
  obtain ⟨e, hE, hrefused⟩ := hf b g' hg' he hq
  refine ⟨e, hE, ?_⟩
  rw [StateT.run_bind, hrun]
  exact hrefused

/-- Constructions one after the other fail where the first of them does. -/
theorem mapM {f : β → Build α γ} {bad : β → Prop} {xs : List β} (hg : g.Constructed)
    (hgood : ∀ x ∈ xs, ¬bad x → ∀ g₁ : Graph α, g₁.Constructed → g.Extends g₁ →
      (f x).Yields g₁ fun _ _ => True)
    (hbad : ∀ x ∈ xs, bad x → ∀ g₁ : Graph α, g₁.Constructed → g.Extends g₁ → (f x).Refuses g₁ E)
    (hex : ∃ x ∈ xs, bad x) : (xs.mapM f).Refuses g E := by
  suffices h : ∀ g₁ : Graph α, g₁.Constructed → g.Extends g₁ → (xs.mapM f).Refuses g₁ E from
    h g hg (.refl g)
  induction xs with
  | nil => simp at hex
  | cons x xs ih =>
    intro g₁ hg₁ he₁
    rw [List.mapM_cons]
    by_cases hx : bad x
    · exact (hbad x List.mem_cons_self hx g₁ hg₁ he₁).bind
    · refine .after (hgood x List.mem_cons_self hx g₁ hg₁ he₁) fun y g₂ hg₂ he₂ _ => .bind ?_
      have hrest : ∃ x ∈ xs, bad x := by
        obtain ⟨z, hz, hbadz⟩ := hex
        rcases List.mem_cons.1 hz with rfl | hz
        · exact absurd hbadz hx
        · exact ⟨z, hz, hbadz⟩
      exact ih (fun x hx => hgood x (List.mem_cons_of_mem _ hx))
        (fun x hx => hbad x (List.mem_cons_of_mem _ hx)) hrest g₂ hg₂ (he₁.trans he₂)

theorem tabulateM {s : Shape} {f : List Nat → Build α Node} {b : List Nat → Prop}
    (hg : g.Constructed)
    (hgood : ∀ i, Shape.Within i s → ¬b i → ∀ g₁ : Graph α, g₁.Constructed → g.Extends g₁ →
      (f i).Yields g₁ fun _ _ => True)
    (hbad : ∀ i, Shape.Within i s → b i → ∀ g₁ : Graph α, g₁.Constructed → g.Extends g₁ →
      (f i).Refuses g₁ E)
    (hex : ∃ i, Shape.Within i s ∧ b i) : (NDArray.tabulateM s f).Refuses g E := by
  have hwithin : ∀ p ∈ List.range (Shape.size s), Shape.Within (Shape.unravel s p) s :=
    fun p hp => Shape.within_unravel (List.mem_range.1 hp)
  obtain ⟨i, hi, hbi⟩ := hex
  have hplace : ∃ p ∈ List.range (Shape.size s), b (Shape.unravel s p) :=
    ⟨Shape.offset s i, List.mem_range.2 (Shape.offset_lt hi), by rwa [Shape.unravel_offset hi]⟩
  have hlist := mapM hg (fun p hp => hgood _ (hwithin p hp)) (fun p hp => hbad _ (hwithin p hp))
    hplace
  rw [← NDArray.toList_tabulateM] at hlist
  exact hlist.of_map

end Refuses

variable {ns : List Node} {n : Node} {size : Nat}

/-- An element that takes inputs of these sizes. -/
theorem element_makes {e : Element α} {explicit : Params α} {Q : Graph α → Node → Prop}
    (hg : g.Constructed) (hin : ∀ n ∈ ns, n.index < g.size)
    (hout : e.sizeOut (ns.map g.sizeOf) = .ok size) (hsize : size ≠ 0)
    (hq : ∀ g' n, g.Extends g' → g'.record? n = some ⟨.element e, ns, size, .empty, explicit⟩ →
      Q g' n) : (element e ns explicit).Makes g size Q := by
  obtain ⟨g', hrun, hp⟩ := Graph.pushed_element explicit hout hsize hin
  have hr := hp.record?_new
  exact (keeps_element trivial ns explicit).yields hg hrun
    ⟨Graph.lt_size hr, Graph.sizeOf_record hr, hq g' _ hp.extension hr⟩

variable [Scalar α] [Scalar.Exact α]

/-- A linear node whose matrices have the widths of the inputs and one height. -/
theorem linear_makes (hg : g.Constructed) {ms : List (Matrix α)}
    (hin : ∀ n ∈ ns, n.index < g.size) (hne : ns ≠ []) (hsize : size ≠ 0)
    (hfit : List.Forall₂ (fun n m => m.nrows = size ∧ m.ncols = g.sizeOf n) ns ms) :
    (linear ns ms).Makes g size fun g' n =>
      g'.Evaluates (∃ hs ms, · = .linear hs ms) n ns fun xs => Matrix.weightedSum size xs ms := by
  have hlength : (ns.map g.sizeOf).length = ms.length := by
    rw [List.length_map, hfit.length_eq]
  have hcount : Network.outputCount ms = size := by
    cases hfit with
    | nil => exact absurd rfl hne
    | cons hm _ => exact hm.1
  have hout : (Element.transform ms).sizeOut (ns.map g.sizeOf) = .ok size := by
    refine Element.transform_sizeOut.2 ⟨hlength, by simpa using hne, hcount.symm, fun p hp => ?_⟩
    obtain ⟨i, hi⟩ := List.mem_iff_getElem?.1 hp
    obtain ⟨hm, hn⟩ := List.getElem?_zip_eq_some.1 hi
    rw [List.getElem?_map, Option.map_eq_some_iff] at hn
    obtain ⟨n, hn, hs⟩ := hn
    obtain ⟨hrows, hcols⟩ := forall₂_getElem? hfit hn hm
    exact ⟨hcols.trans hs, hrows⟩
  refine element_makes hg hin hout hsize fun g' n _ hr => ?_
  exact (Graph.evaluates_transform hr).imp fun o ⟨hs, ho⟩ => ⟨hs, ms, ho⟩

/-- A source of a constant. -/
theorem stimulus_makes (hg : g.Constructed) {xs : List α} (hne : xs ≠ []) :
    (stimulus (.constant xs)).Makes g xs.length fun g' n => g'.Computes n [] fun _ => xs :=
  element_makes hg nofun rfl (fun h => hne (List.length_eq_zero_iff.1 h))
    fun _ _ _ hr => Graph.computes_constant hr

/-- A bundle of nodes whose sizes do not add up to zero as a word. -/
theorem bundle_makes (hg : g.Constructed) (hin : ∀ n ∈ ns, n.index < g.size) (hne : ns ≠ [])
    (hsize : Shape.wordTotal (ns.map g.sizeOf) ≠ 0) :
    (bundle ns).Makes g (Shape.wordTotal (ns.map g.sizeOf)) fun g' n =>
      Shape.total (ns.map g.sizeOf) < wordCount → g'.Computes n ns List.flatten := by
  refine element_makes hg hin ?_ hsize fun g' n he hr hlt => ?_
  · obtain ⟨n, ns, rfl⟩ := List.exists_cons_of_ne_nil hne
    rfl
  · refine Graph.computes_bundle hr ?_
    rw [he.sizes hin]
    exact Shape.wordTotal_of_lt hlt

/-- A function of a node with a size. -/
theorem decode_makes (hg : g.Constructed) (hn : n.index < g.size) (hsize : size ≠ 0)
    (function : VectorFunction α) (explicit : Params α) :
    (decode n function (some size) explicit).Makes g size fun g' m =>
      g'.Evaluates (∃ h params, · = .nonlinear h function params) m [n]
        fun xs => function (xs.headD []) :=
  element_makes hg (List.forall_mem_singleton.2 hn) rfl hsize fun _ _ _ hr =>
    Graph.evaluates_decode hr

/-- The components of a node at some indices. -/
theorem slice_makes (hg : g.Constructed) (hn : n.index < g.size) {indices : List Nat}
    (hne : indices ≠ []) (hin : ∀ i ∈ indices, i < g.sizeOf n) :
    (slice n indices).Makes g indices.length fun g' m =>
      g'.Computes m [n] fun xs => indices.map fun i => (xs.headD []).getD i Scalar.zero := by
  have hout : (Element.slice (α := α) indices).sizeOut ([n].map g.sizeOf) = .ok indices.length := by
    have hfind : indices.find? (g.sizeOf n ≤ ·) = none :=
      List.find?_eq_none.2 fun i hi => by simpa using hin i hi
    simp only [Element.slice, List.map_cons, List.map_nil, Element.singleInput, bind, Except.bind,
      hfind]
    rfl
  exact element_makes hg (List.forall_mem_singleton.2 hn) hout
    (fun h => hne (List.length_eq_zero_iff.1 h)) fun _ _ _ hr => Graph.computes_slice hr

end Build

/-- A node of half as many values as there are words. -/
def halfWord : Build ℚ Node := do
  Build.decode (← Build.stimulus (.constant [1])) (List.take 1) (some (2 ^ 63)) .empty

theorem halfWord_constructed : halfWord.graph.Constructed := by
  have hall : ∀ k : BuiltinKind ℚ, (fun _ => True) k.element := fun _ => trivial
  have hk : Build.Keeps (fun _ => True) halfWord :=
    (Build.keeps_stimulus hall _).bind fun _ => Build.keeps_decode hall _ _ _ _
  exact hk.constructed

end SignalGraph
