import SignalGraph.Proofs.Dispatch.Keeping
import SignalGraph.Proofs.Graph.Parameters
import SignalGraph.Proofs.Graph.Scopes
import SignalGraph.Proofs.Lowering.Granted
import SignalGraph.Proofs.Realize.Sessions

namespace SignalGraph

open Realize Realization Stateful

variable {α : Type} [Scalar α]

/-- Whether the parameters of a node are in order: its overlay sets known parameters, it is given
those that its kind declares, and what it resolves them to is in range. -/
def Graph.configured (g : Graph α) (defaults : Defaults α) (n : Node) : Bool :=
  match g.record? n with
  | none => true
  | some rec =>
    rec.overlay.keys.all defaults.contains &&
      match rec.kind with
      | .element e =>
        rec.explicit.keys.all e.configurable.contains &&
          (g.resolve n e.configurable defaults).toOption.all (·.inRange)
      | _ => true

/-- The same for a node and all that it leads to. -/
def Graph.WellConfigured (g : Graph α) (defaults : Defaults α) (n : Node) : Prop :=
  ∀ m, g.Reached [n] m → g.configured defaults m = true

/-- A node that is refused for none of its parameters: its overlay sets known ones, and those that
an element reads have values in their ranges. -/
def Graph.Accepts (g : Graph α) (defaults : Defaults α) (n : Node) : Prop :=
  ∀ rec e, g.record? n = some rec → rec.kind = .element e →
    g.checkOverlay n defaults = .ok () ∧
      ∃ config, g.resolve n e.configurable defaults = .ok config ∧ config.inRange = true

namespace Graph.WellConfigured

variable {g : Graph α} {defaults : Defaults α} {n m : Node} {rec : NodeRecord α}

theorem input (h : g.WellConfigured defaults n) (hr : g.record? n = some rec)
    (hm : m ∈ rec.inputs) : g.WellConfigured defaults m := by
  refine fun k hk => h k (hk.through fun l hl => ?_)
  rw [List.mem_singleton.1 hl]
  refine .input (.root List.mem_cons_self) ?_
  rwa [inputsOf, hr]

theorem integrand (h : g.WellConfigured defaults n) {s : Node} (hr : g.record? n = some rec)
    (hk : rec.kind = .integrate s (some m)) : g.WellConfigured defaults m := by
  refine fun k hk' => h k (hk'.through fun l hl => ?_)
  rw [List.mem_singleton.1 hl]
  exact .integrand (.root List.mem_cons_self) (integrandOf_eq_some.2 ⟨rec, s, hr, hk⟩)

/-- The parameters of an element are known, and all of them have values in their ranges. -/
theorem resolved (h : g.WellConfigured defaults n) {e : Element α} (hr : g.record? n = some rec)
    (hk : rec.kind = .element e) (hdefaults : ∀ key ∈ e.configurable, defaults.contains key = true) :
    g.checkOverlay n defaults = .ok () ∧
      ∃ config, g.resolve n e.configurable defaults = .ok config ∧ config.inRange = true := by
  have hn := h n (.root List.mem_cons_self)
  simp only [configured, hr, hk, Bool.and_eq_true, List.all_eq_true, List.contains_iff_mem] at hn
  obtain ⟨hoverlay, hexplicit, hrange⟩ := hn
  have hoverlayOf : g.overlayOf n = rec.overlay := by rw [overlayOf, hr]; rfl
  have hexplicitOf : g.explicitOf n = rec.explicit := by rw [explicitOf, hr]; rfl
  obtain ⟨config, hres⟩ := resolve_total.2 ⟨hexplicitOf ▸ hexplicit, fun key hkey =>
    provided_of_default (n := n) (hdefaults key hkey)⟩
  rw [hres] at hrange
  exact ⟨checkOverlay_ok (hoverlayOf ▸ hoverlay), config, hres, hrange⟩

theorem of_all (h : ∀ i < g.size, g.configured defaults ⟨i⟩ = true) : g.WellConfigured defaults n := by
  intro m _
  by_cases hm : m.index < g.size
  · exact h m.index hm
  · have hnone : g.record? m = none := Array.getElem?_eq_none (Nat.le_of_not_lt hm)
    rw [configured, hnone]

end Graph.WellConfigured

theorem BuiltinKind.configurable_subset (kind : BuiltinKind α) :
    kind.element.configurable ⊆ builtinKeys := by
  cases kind <;> simp [element, builtinKeys, Element.stimulus, Element.transform, Element.decode,
    Element.slice, Element.bundle, Element.filter, Element.configure]

/-- What construction has checked of an element. -/
theorem Graph.Regular.checked {g : Graph α} {opens : List Node}
    (hg : g.Regular Element.IsBuiltin opens) {n : Node} {rec : NodeRecord α} {e : Element α}
    (hr : g.record? n = some rec) (hk : rec.kind = .element e) :
    ∃ kind : BuiltinKind α, e = kind.element ∧
      kind.element.sizeOut (rec.inputs.map g.sizeOf) = .ok rec.size ∧ rec.size ≠ 0 := by
  cases hg.record _ _ hr with
  | element he hne hsize =>
    cases hk
    obtain ⟨kind, rfl⟩ := he
    exact ⟨kind, rfl, hsize, hne⟩
  | configure hne =>
    cases hk
    exact ⟨.configure, rfl, rfl, hne⟩
  | state => cases hk
  | integrate => cases hk

theorem Graph.WellConfigured.accepts {g : Graph α} {opens : List Node} {defaults : Defaults α}
    {n : Node} (h : g.WellConfigured defaults n) (hg : g.Regular Element.IsBuiltin opens)
    (hd : defaults.Declared) : g.Accepts defaults n := by
  intro rec e hr hk
  obtain ⟨kind, rfl, -⟩ := hg.checked hr hk
  exact h.resolved hr hk fun key hkey => hd.contains (kind.configurable_subset hkey)

omit [Scalar α] in
theorem Graph.Regular.integrand_size {allowed : Element α → Prop} {g : Graph α} {opens : List Node}
    (hg : g.Regular allowed opens) {n s f : Node} {rec : NodeRecord α} (hr : g.record? n = some rec)
    (hk : rec.kind = .integrate s (some f)) : g.sizeOf f = g.sizeOf n := by
  rw [sizeOf_record hr]
  cases hg.record _ _ hr with
  | integrate _ _ hf =>
    cases hk
    exact hf f rfl
  | _ => cases hk

namespace Realization

variable {g : Graph α} {opens : List Node} {defaults : Defaults α} {within : List Node}
  {bound : Nat} {r r' : Realization α (Network α)}

/-- A realization in the middle of loops, the placeholders of which are `within`. -/
structure Opened (g : Graph α) (within : List Node) (bound : Nat)
    (r : Realization α (Network α)) : Prop extends r.Sized g where
  owned : r.Owned g bound
  placeholders : ∀ s ∈ within, ∃ k, r.built s = some k

theorem Opened.mono {bound' : Nat} (h : r.Opened g within bound) (hle : bound' ≤ bound) :
    r.Opened g within bound' :=
  { h with owned := h.owned.mono hle }

theorem Opened.traced (h : r.Opened g within bound) (hg : g.Regular Element.IsBuiltin opens)
    {ns : List Node} {es : List Event} {ks : List Handle}
    (ht : Traced Target.network g defaults ns r es ks r') (hns : ∀ n ∈ ns, n.index < bound) :
    r'.Opened g within bound := by
  obtain ⟨hs, -⟩ := ht.sized hg hns h.owned h.toSized
  obtain ⟨ws, hw⟩ := ht.written hg hns h.owned
  refine ⟨hs, hw.owned h.owned, fun s hs => ?_⟩
  obtain ⟨k, hk⟩ := h.placeholders s hs
  exact ⟨k, hw.keeps _ _ hk⟩

/-- Nodes that can be realized each can be realized one after the other. -/
theorem Opened.nodes (hg : g.Regular Element.IsBuiltin opens) {ns : List Node}
    (hns : ∀ n ∈ ns, n.index < bound)
    (hall : ∀ n ∈ ns, ∀ q : Realization α (Network α), q.Opened g within (n.index + 1) →
      ∃ es k q', Traced Target.network g defaults [n] q es [k] q')
    (h : r.Opened g within bound) :
    ∃ es ks r', Traced Target.network g defaults ns r es ks r' := by
  induction ns generalizing r with
  | nil => exact ⟨[], [], r, .nil r⟩
  | cons n ns ih =>
    have hn := hns n List.mem_cons_self
    obtain ⟨es, k, r₁, ht⟩ := hall n List.mem_cons_self r (h.mono hn)
    have h₁ := h.traced hg ht fun m hm => List.mem_singleton.1 hm ▸ hn
    obtain ⟨fs, ks, r', hts⟩ := ih (fun m hm => hns m (List.mem_cons_of_mem _ hm))
      (fun m hm => hall m (List.mem_cons_of_mem _ hm)) h₁
    exact ⟨es ++ fs, k :: ks, r', ht.append hts⟩

/-- The inputs of a node can be realized when each of them can. -/
theorem Opened.inputs (hg : g.Regular Element.IsBuiltin opens) {n : Node} {rec : NodeRecord α}
    (hr : g.record? n = some rec) (h : r.Opened g within (n.index + 1))
    (hall : ∀ m ∈ rec.inputs, ∀ q : Realization α (Network α), q.Opened g within (m.index + 1) →
      ∃ es k q', Traced Target.network g defaults [m] q es [k] q') :
    ∃ es ks r' ws, Traced Target.network g defaults rec.inputs r es ks r' ∧
      r'.Opened g within n.index ∧ Written g n.index rec.inputs r es ks r' ws := by
  have hlt := Graph.inputs_lt hr
  have h₀ := h.mono (Nat.le_succ n.index)
  obtain ⟨es, ks, r', ht⟩ := Opened.nodes hg hlt hall h₀
  obtain ⟨ws, hw⟩ := ht.written hg hlt h₀.owned
  exact ⟨es, ks, r', ws, ht, h₀.traced hg ht hlt, hw⟩

/-- What is known once the inputs of a node are realized. -/
theorem Opened.after_inputs (hg : g.Regular Element.IsBuiltin opens) {n : Node} {rec : NodeRecord α}
    (hr : g.record? n = some rec) (h : r.Opened g within (n.index + 1)) {inputs : List Handle}
    (hin : (rec.inputs.mapM fun m => place Target.network g defaults m.index).run r =
      (.ok inputs, r')) :
    r'.Opened g within n.index ∧ ∃ es ws, Written g n.index rec.inputs r es inputs r' ws := by
  have hlt := Graph.inputs_lt hr
  have h₀ := h.mono (Nat.le_succ n.index)
  obtain ⟨es, ht⟩ := traced_iff.1 hin
  exact ⟨h₀.traced hg ht hlt, es, ht.written hg hlt h₀.owned⟩

/-- The loop of an integrator is opened: its placeholder is one more that may be used. -/
theorem Opened.open (hg : g.Regular Element.IsBuiltin opens) {n s : Node} {rec : NodeRecord α}
    {f : Option Node} {u k : Handle} {r₁ r₂ : Realization α (Network α)} {es : List Event}
    {ws : List Write} (h : r.Opened g within (n.index + 1)) (hb : r.built n = none)
    (hr : g.record? n = some rec) (hk : rec.kind = .integrate s f) (h₁ : r₁.Opened g within n.index)
    (hw : Written g n.index rec.inputs r es [u] r₁ ws)
    (hc : (onTarget (Target.network.create (.feedback u))).run r₁ = (.ok k, r₂)) :
    (r₂.write s k).Opened g (s :: within) n.index ∧
      r₂.target.objects[k.id]? = some ⟨.feedback u none, k.size⟩ ∧ k.size = g.sizeOf n := by
  obtain ⟨hs, -, hobject, hsize, -⟩ := opened_sized hg h₁.toSized hr hk hw.answers hc
  obtain ⟨hl, ho⟩ := opened_logged hg (h := k) (Nat.lt_succ_self _) hb hr hk h.owned hw
    (onTarget_keeps hc)
  refine ⟨⟨hs, ho, fun m hm => ?_⟩, hobject, hsize⟩
  rcases List.mem_cons.1 hm with rfl | hm
  · exact ⟨k, hl.written (List.mem_append_right _ (List.mem_singleton_self _))⟩
  · obtain ⟨w, hm'⟩ := h.placeholders m hm
    exact ⟨w, hl.keeps _ _ hm'⟩

end Realization

namespace Realize

variable {g : Graph α} {opens : List Node} {defaults : Defaults α} {within : List Node} {n : Node}
  {rec : NodeRecord α} {r : Realization α (Network α)}

/-- An element whose inputs are known is realized. -/
theorem element_total (hg : g.Regular Element.IsBuiltin opens) {e : Element α}
    {inputs : List Handle} (hr : g.record? n = some rec) (hk : rec.kind = .element e)
    (hn : g.Accepts defaults n) (hs : r.Sized g)
    (hall : List.Forall₂ (fun m w => r.built m = some w) rec.inputs inputs) :
    g.checkOverlay n defaults = .ok () ∧ ∃ config h r',
      g.resolve n e.configurable defaults = .ok config ∧
        (converse Target.network (e.lower inputs config)).run r = (.ok h, r') ∧ h.size = rec.size := by
  obtain ⟨kind, rfl, hsize, hne⟩ := hg.checked hr hk
  obtain ⟨ho, config, hres, hrange⟩ := hn rec _ hr hk
  have hkind : config.kind = kind.element.name := by
    rw [Graph.resolve_kind hres, Graph.kindOf, hr]
    simp only [Option.elim_some, hk, NodeKind.name]
  rw [hs.sizes hall] at hsize
  obtain ⟨h, r', hrun, hh⟩ := BuiltinKind.converse_total hne (hs.holds hall) hsize hkind hrange
  exact ⟨ho, config, h, r', hres, hrun, hh⟩

/-- An element that a network gave an object was accepted. -/
theorem accepts_of_converse (hg : g.Regular Element.IsBuiltin opens) {e : Element α}
    {config : ResolvedConfig α} {inputs : List Handle} {h : Handle} {r' : Realization α (Network α)}
    (hr : g.record? n = some rec) (hk : rec.kind = .element e)
    (ho : g.checkOverlay n defaults = .ok ())
    (hres : g.resolve n e.configurable defaults = .ok config)
    (hc : (converse Target.network (e.lower inputs config)).run r = (.ok h, r')) :
    g.Accepts defaults n := by
  intro rec' e' hr' hk'
  cases hr.symm.trans hr'
  cases hk.symm.trans hk'
  obtain ⟨kind, rfl⟩ := hg.isBuiltin hr hk
  refine ⟨ho, config, hres, kind.inRange_of_converse ?_ hc⟩
  rw [Graph.resolve_kind hres, Graph.kindOf, hr]
  simp only [Option.elim_some, hk, NodeKind.name]

/-- An element with inputs that can be realized is realized exactly when it is known or accepted. -/
theorem make_element_iff (hg : g.Regular Element.IsBuiltin opens) (hs : r.Settled g) {e : Element α}
    (hr : g.record? n = some rec) (hk : rec.kind = .element e)
    (hin : ∃ ws r₁, (rec.inputs.mapM (make Target.network g defaults)).run r = (.ok ws, r₁)) :
    (∃ h r', (make Target.network g defaults n).run r = (.ok h, r')) ↔
      (∃ h, r.built n = some h) ∨ g.Accepts defaults n := by
  constructor
  · rintro ⟨h, r', hmake⟩
    cases place_ok.1 (make_ok.1 hmake).2 with
    | known hb => exact .inl ⟨h, hb⟩
    | element hb hr' hk' ho hres hins hc hsize =>
      exact .inr (accepts_of_converse hg hr' hk' ho hres hc)
    | integrate hb hr' hk' =>
      cases hr.symm.trans hr'
      cases hk.symm.trans hk'
    | closed hb hr' hk' =>
      cases hr.symm.trans hr'
      cases hk.symm.trans hk'
  · intro hor
    cases hb : r.built n with
    | some h => exact ⟨h, r, make_ok.2 ⟨hs.healthy, place_ok.2 (.known hb)⟩⟩
    | none =>
      have haccepts : g.Accepts defaults n := hor.resolve_left (by simp [hb])
      have hopened : r.Opened g [] (n.index + 1) :=
        ⟨hs.toSized, hs.owned _, fun s hs => absurd hs List.not_mem_nil⟩
      obtain ⟨ws, r₁, hmakes⟩ := hin
      have hins := places_of_makes hmakes
      obtain ⟨h₁, es, written, hw⟩ := hopened.after_inputs hg hr hins
      obtain ⟨ho, config, h, r₂, hres, hrun, hsize⟩ :=
        element_total hg hr hk haccepts h₁.toSized hw.answers
      have hplaced := Placed.element hb hr hk ho hres hins hrun hsize
      exact ⟨h, _, make_ok.2 ⟨hs.healthy, place_ok.2 hplaced⟩⟩

/-- The feedback object of an integrator whose input is known is made. -/
theorem feedback_total (hg : g.Regular Element.IsBuiltin opens) {s : Node} {f : Option Node}
    {inputs : List Handle} (hr : g.record? n = some rec) (hk : rec.kind = .integrate s f)
    (hs : r.Sized g) (hall : List.Forall₂ (fun m w => r.built m = some w) rec.inputs inputs) :
    ∃ u h r', inputs = [u] ∧ (onTarget (Target.network.create (.feedback u))).run r = (.ok h, r') := by
  obtain ⟨m, f', ho, -⟩ := hg.owns ⟨rec, f, hr, hk⟩
  cases hr.symm.trans ho
  obtain ⟨u, us, hm, hus, rfl⟩ := List.forall₂_cons_left_iff.1 hall
  obtain rfl := List.forall₂_nil_left_iff.1 hus
  have hu := (hs.known m u hm).2.1
  have hc : r.target.create (.feedback u) = .ok (⟨r.target.size, u.size⟩, _) :=
    Network.create_eq_ok.2 ⟨⟨rfl, rfl⟩, fun w hw => List.mem_singleton.1 hw ▸ hu, rfl, nofun⟩
  exact ⟨u, _, _, rfl, create_ok.2 ⟨_, hc, rfl⟩⟩

/-- An open loop is closed behind the run of its integrand, which only makes more objects. -/
theorem closing_total (hg : g.Regular Element.IsBuiltin opens) {s f : Node} {u k rate : Handle}
    {fs : List Event} {r' : Realization α (Network α)} (hr : g.record? n = some rec)
    (hk : rec.kind = .integrate s (some f)) (h : r.Opened g within n.index)
    (hobject : r.target.objects[k.id]? = some ⟨.feedback u none, k.size⟩)
    (hsize : k.size = g.sizeOf n) (ht : Traced Target.network g defaults [f] r fs [rate] r') :
    ∃ r'', (onTarget (Target.network.connect k rate)).run r' = (.ok (), r'') := by
  have hfs : ∀ m ∈ [f], m.index < n.index :=
    List.forall_mem_singleton.2 (Graph.integrand_lt hr hk)
  obtain ⟨hs, hcont⟩ := ht.sized hg hfs h.owned h.toSized
  obtain ⟨ws, hw⟩ := ht.written hg hfs h.owned
  obtain ⟨-, hholds, hratesize⟩ := hs.known f rate hw.answer
  have hfit : rate.size = k.size := hratesize.trans ((hg.integrand_size hr hk).trans hsize.symm)
  have hconnect := Network.connect_eq_ok.2 ⟨hholds, hfit, u, hcont.object hobject, rfl⟩
  exact ⟨_, connect_ok.2 ⟨_, hconnect, rfl⟩⟩

end Realize

variable {g : Graph α} {defaults : Defaults α} {n : Node} {r : Realization α (Network α)}

/-- The recursion goes along the scoping of the node. -/
theorem Graph.Scoped.traced {within opens : List Node} (hn : g.Scoped within n)
    (hg : g.Regular Element.IsBuiltin opens) (hd : defaults.Declared)
    (hconf : g.WellConfigured defaults n) (h : r.Opened g within (n.index + 1)) :
    ∃ es k r', Traced Target.network g defaults [n] r es [k] r' := by
  induction hn generalizing r with
  | @state within s hs =>
    obtain ⟨k, hb⟩ := h.placeholders s hs
    exact ⟨[], k, r, .known hb (.nil r)⟩
  | @element within n rec e hr hk hin ih =>
    cases hb : r.built n with
    | some k => exact ⟨[], k, r, .known hb (.nil r)⟩
    | none =>
      obtain ⟨ins, inputs, r₁, ws, hins, h₁, hw⟩ :=
        h.inputs hg hr fun m hm q hq => ih m hm (hconf.input hr hm) hq
      obtain ⟨ho, config, k, r₂, hres, hrun, hsize⟩ :=
        element_total hg hr hk (hconf.accepts hg hd) h₁.toSized hw.answers
      exact ⟨_, k, _, .element hb hr hk ho hres hins hrun hsize (.nil _)⟩
  | @integrate within n s rec hr hk hin ih =>
    cases hb : r.built n with
    | some k => exact ⟨[], k, r, .known hb (.nil r)⟩
    | none =>
      obtain ⟨ins, inputs, r₁, ws, hins, h₁, hw⟩ :=
        h.inputs hg hr fun m hm q hq => ih m hm (hconf.input hr hm) hq
      obtain ⟨u, k, r₂, rfl, hc⟩ := feedback_total hg hr hk h₁.toSized hw.answers
      exact ⟨_, k, _, .integrate hb hr hk hins hc (.nil _)⟩
  | @closed within n s f rec hr hk hin hf ih ihf =>
    cases hb : r.built n with
    | some k => exact ⟨[], k, r, .known hb (.nil r)⟩
    | none =>
      obtain ⟨ins, inputs, r₁, ws, hins, h₁, hw⟩ :=
        h.inputs hg hr fun m hm q hq => ih m hm (hconf.input hr hm) hq
      obtain ⟨u, k, r₂, rfl, hc⟩ := feedback_total hg hr hk h₁.toSized hw.answers
      obtain ⟨h₂, hobject, hsize⟩ := h.open hg hb hr hk h₁ hw hc
      obtain ⟨fs, rate, r₃, htf⟩ :=
        ihf (hconf.integrand hr hk) (h₂.mono (Graph.integrand_lt hr hk))
      obtain ⟨r₄, hconnect⟩ := closing_total hg hr hk h₂ hobject hsize htf
      exact ⟨_, k, _, .closed hb hr hk hins hc htf hconnect (.nil _)⟩

/-- A node that uses placeholders inside the integrands of their integrators only, with known and
declared parameters of the right types and in their ranges, is realized by every session that is
still healthy, whatever was realized before and whatever was called on the network. No check of the
network refuses it: each node on the way gets an object of the size that construction has told. A
machine needs room for the matrices on the way besides, each of fewer than `entryLimit` entries. -/
theorem constructed_realizes (hr : Session defaults g r) (hd : defaults.Declared) (hn : g.Scoped [] n)
    (hconf : g.WellConfigured defaults n) :
    ∃ h r', (make Target.network g defaults n).run r = (.ok h, r') ∧ r'.built n = some h ∧
      r'.poisoned = false ∧ (∀ m, g.Reached [n] m → ∃ k, r'.built m = some k) ∧
      ∀ m k, r'.built m = some k →
        k.size = g.sizeOf m ∧ ∃ o, r'.target.objects[k.id]? = some o ∧ o.size = k.size := by
  obtain ⟨hs, opens, hg⟩ := hr.settled
  have hopened : r.Opened g [] (n.index + 1) := ⟨hs.toSized, hs.owned _, nofun⟩
  obtain ⟨es, h, r', ht⟩ := hn.traced hg hd hconf hopened
  obtain ⟨hs', hb⟩ := hs.traced hg ht
  have hplace := mapM_singleton.1 (traced_iff.2 ⟨es, ht⟩)
  refine ⟨h, r', make_ok.2 ⟨hs.healthy, hplace⟩, hb, hs'.healthy,
    fun m hm => hs'.reached hg ⟨h, hb⟩ hm, fun m k hk => ?_⟩
  obtain ⟨-, hh, hsize⟩ := hs'.known m k hk
  exact ⟨hsize, Network.holds_iff.1 hh⟩

/-- A source under a radius, a linear system whose state rate neurons decode from the filtered
state, and a bundle of its second component with the source. -/
def tunedLoop : Build ℚ Node := do
  let u ← Build.stimulus (.constant [1, 2])
  let c ← Build.configure u (KeyMap.empty.insert "radius" (.float 2))
  let x ← Operation.Method.lti Registry.builtin.dispatch (.node c) ((Matrix.identity 2).scale (-1))
    (Matrix.identity 2) (some fun x => do
      let y ← Build.filter x (some (1 / 10))
      Build.decode y (fun v => v.map fun a => a * a) none
        (KeyMap.empty.insert "neuron_type" (.text "lif_rate")))
  let z ← Build.slice (← Build.ofGraph x.toNode) [1]
  Build.bundle [z, u]

def tunedGraph : Graph ℚ := tunedLoop.graph

theorem tunedGraph_grown : tunedGraph.Grown Element.IsBuiltin [] := by
  have hall : ∀ k : BuiltinKind ℚ, k.element.IsBuiltin := fun k => ⟨k, rfl⟩
  have hdispatch := Registry.dispatch_keeps (Registry.builtin_keeps hall)
  have hk : Build.Keeps Element.IsBuiltin tunedLoop := by
    refine (Build.keeps_stimulus hall _).bind fun u => (Build.keeps_configure _ _).bind fun c => ?_
    refine Build.Keeps.bind (Operation.Method.lti_keeps hall hdispatch _ _ _ ?_) fun x =>
      (Build.keeps_ofGraph _).bind fun x =>
        (Build.keeps_slice hall _ _).bind fun z => Build.keeps_bundle hall _
    rintro _ ⟨⟩ x
    exact (Build.keeps_filter hall _ _).bind fun y => Build.keeps_decode hall _ _ _ _
  exact hk.grown

/-- The bundle is realized on a network that holds another source, after the graph's own source. -/
theorem tunedLoop_realizes :
    ∃ r : Realization ℚ (Network ℚ), Session .standard tunedGraph r ∧ r.target.size = 2 ∧ r.size = 1 ∧
      (Defaults.standard : Defaults ℚ).Declared ∧ tunedGraph.Scoped [] ⟨9⟩ ∧
      tunedGraph.WellConfigured .standard ⟨9⟩ ∧
      ∃ h r', (make Target.network tunedGraph .standard ⟨9⟩).run r = (.ok h, r') ∧
        ∀ m k, r'.built m = some k →
          k.size = tunedGraph.sizeOf m ∧ ∃ o, r'.target.objects[k.id]? = some o ∧ o.size = k.size := by
  have hstart : Session .standard tunedGraph (.start (.empty none)) :=
    .start tunedGraph_grown (.empty none)
  have hcall := hstart.call (.create (.source (.constant [5])))
  have hfirst : ∃ r, (make Target.network tunedGraph .standard ⟨0⟩).run
      (.start ((Network.empty none).after [.create (.source (.constant [5]))])) = (.ok ⟨1, 2⟩, r) ∧
        r.target.size = 2 ∧ r.size = 1 :=
    ⟨_, Prod.ext (by decide +kernel) rfl, by decide +kernel, by decide +kernel⟩
  obtain ⟨r, hmake, hobjects, hnodes⟩ := hfirst
  have hd : (Defaults.standard : Defaults ℚ).Declared := .ofSettings _
  have hscoped : tunedGraph.Scoped [] ⟨9⟩ := by decide +kernel
  have hconf : tunedGraph.WellConfigured .standard ⟨9⟩ := .of_all (by decide +kernel)
  have hsession := hcall.make hmake
  obtain ⟨h, r', hrun, -, -, -, hknown⟩ := constructed_realizes hsession hd hscoped hconf
  exact ⟨r, hsession, hobjects, hnodes, hd, hscoped, hconf, h, r', hrun, hknown⟩

end SignalGraph
