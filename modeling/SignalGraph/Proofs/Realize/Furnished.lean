import Mathlib.Data.List.Pairwise
import SignalGraph.Proofs.Realize.Sessions

namespace SignalGraph

open Realize Realization Stateful

variable {α : Type}

namespace Event

/-- The handle of the object that an event brings. A configure node brings none. -/
def created (g : Graph α) : Event → Option Handle
  | build n _ h => if g.kindOf n = "configure" then none else some h
  | feedback _ _ h => some h
  | connect .. => none

/-- Events that bring no object together. -/
def Apart (g : Graph α) (ev ev' : Event) : Prop :=
  ∀ h, ev.created g = some h → ∀ h', ev'.created g = some h' → h.id ≠ h'.id

instance (g : Graph α) : Std.Symm (Apart g) :=
  ⟨fun _ _ hab k hk k' hk' => (hab k' hk' k hk).symm⟩

/-- The object that an event closes the loop of `h` at. -/
def rate? (h : Handle) : Event → Option Handle
  | connect _ k rate => if k = h then some rate else none
  | _ => none

/-- What a network has for an event, each loop being closed at the object that `closing` tells. -/
def Shown (g : Graph α) (defaults : Defaults α) (closing : Handle → Option Handle)
    (net : Network α) : Event → Prop
  | build n inputs h => ∃ rec e config, g.record? n = some rec ∧ rec.kind = .element e ∧
    g.resolve n e.configurable defaults = .ok config ∧
    match (e.lower inputs config).request with
    | none => g.kindOf n = "configure" ∧ inputs.head? = some h
    | some q => g.kindOf n ≠ "configure" ∧ (∀ u c, q.object ≠ .feedback u c) ∧
      net.objects[h.id]? = some ⟨q.object, h.size⟩
  | feedback _ u h => net.objects[h.id]? = some ⟨.feedback u (closing h), h.size⟩
  | connect _ h _ => h.id < net.size

end Event

/-- The object that events close the loop of `h` at. -/
def closedAt (es : List Event) (h : Handle) : Option Handle := es.findSome? (Event.rate? h)

theorem closedAt_append (es fs : List Event) (h : Handle) :
    closedAt (es ++ fs) h = (closedAt es h).or (closedAt fs h) :=
  List.findSome?_append

theorem closedAt_eq_some {es : List Event} {h rate : Handle} (hc : closedAt es h = some rate) :
    ∃ n, .connect n h rate ∈ es := by
  obtain ⟨e, he, hr⟩ := List.exists_of_findSome?_eq_some hc
  cases e with
  | connect n k r =>
    simp only [Event.rate?] at hr
    split at hr
    · rename_i hk
      cases hr
      exact ⟨n, hk ▸ he⟩
    · cases hr
  | _ => cases hr

theorem closedAt_ne_none {es : List Event} {n : Node} {h rate : Handle} (he : .connect n h rate ∈ es) :
    closedAt es h ≠ none := by
  intro hc
  have hr := List.findSome?_eq_none_iff.1 hc _ he
  simp [Event.rate?] at hr

namespace Event.Shown

variable {g : Graph α} {defaults : Defaults α} {closing : Handle → Option Handle}
  {net net' : Network α} {ev : Event}

theorem continues (h : ev.Shown g defaults closing net) (hc : net.Continues net') :
    ev.Shown g defaults closing net' := by
  cases ev with
  | build n inputs k =>
    obtain ⟨rec, e, config, hr, hk, hres, hq⟩ := h
    refine ⟨rec, e, config, hr, hk, hres, ?_⟩
    split at hq
    · exact hq
    · exact ⟨hq.1, hq.2.1, hc.object hq.2.2⟩
  | feedback n u k => exact hc.object h
  | connect n k rate => exact Nat.lt_of_lt_of_le h hc.size

/-- A loop is closed at one more object, and all else stays. -/
theorem connect (h : ev.Shown g defaults closing net) {w rate : Handle}
    (hc : net.connect w rate = .ok net') :
    ev.Shown g defaults (fun k => (closing k).or (if w = k then some rate else none)) net' := by
  obtain ⟨-, -, input, hw, rfl⟩ := Network.connect_eq_ok.1 hc
  have hlt := (Array.getElem?_eq_some_iff.1 hw).1
  cases ev with
  | build n inputs k =>
    obtain ⟨rec, e, config, hr, hk, hres, hq⟩ := h
    refine ⟨rec, e, config, hr, hk, hres, ?_⟩
    split at hq
    · exact hq
    · obtain ⟨hname, hobject, ho⟩ := hq
      refine ⟨hname, hobject, ?_⟩
      by_cases hid : w.id = k.id
      · rw [← hid, hw] at ho
        exact absurd (congrArg ObjectRecord.object (Option.some.inj ho)).symm (hobject input none)
      · rw [Array.getElem?_setIfInBounds_ne hid, ho]
  | feedback n u k =>
    have ho : net.objects[k.id]? = some ⟨.feedback u (closing k), k.size⟩ := h
    change (net.objects.setIfInBounds w.id _)[k.id]? = _
    by_cases hid : w.id = k.id
    · rw [← hid, hw] at ho
      obtain ⟨hobject, hsize⟩ := ObjectRecord.mk.inj (Option.some.inj ho)
      obtain ⟨rfl, hnone⟩ := NetworkObject.feedback.inj hobject
      obtain rfl : w = k := by
        cases w
        cases k
        cases hid
        cases hsize
        rfl
      simp [← hnone, hlt]
    · have hne : w ≠ k := fun he => hid (congrArg Handle.id he)
      rw [Array.getElem?_setIfInBounds_ne hid, ho]
      simp [hne]
  | connect n k rate =>
    have hk : k.id < net.objects.size := h
    simpa [Shown, Network.size] using hk

end Event.Shown

/-- What a network has for events that have filled it. -/
structure Furnished (g : Graph α) (defaults : Defaults α) (es : List Event) (net : Network α) :
    Prop where
  ids : (es.filterMap (Event.created g)).map Handle.id = List.range net.size
  shown : ∀ ev ∈ es, ev.Shown g defaults (closedAt es) net

namespace Furnished

variable {g : Graph α} {defaults : Defaults α} {es : List Event} {net net' : Network α} {ev : Event}

theorem empty (label : Option String) : Furnished g defaults [] (.empty label) :=
  ⟨rfl, nofun⟩

/-- An event that closes no loop leaves the closings as they are. -/
theorem closedAt_snoc (hrate : ∀ h, ev.rate? h = none) : closedAt (es ++ [ev]) = closedAt es := by
  funext h
  rw [closedAt_append]
  simp [closedAt, hrate h]

/-- A configure node stands for its input. -/
theorem configure (hf : Furnished g defaults es net) {n : Node} {inputs : List Handle} {h : Handle}
    (hname : g.kindOf n = "configure")
    (hshown : (Event.build n inputs h).Shown g defaults (closedAt es) net) :
    Furnished g defaults (es ++ [.build n inputs h]) net where
  ids := by simp [Event.created, hname, hf.ids]
  shown ev hev := by
    rw [closedAt_snoc fun _ => rfl]
    rcases List.mem_append.1 hev with hev | hev
    · exact hf.shown ev hev
    · rw [List.mem_singleton.1 hev]
      exact hshown

/-- A new object stands behind those of the earlier events. -/
theorem create [Scalar α] (hf : Furnished g defaults es net) {q : Request α} {h : Handle}
    (hc : net.create q = .ok (h, net')) (hrate : ∀ k, ev.rate? k = none)
    (hcreated : ev.created g = some h) (hshown : ev.Shown g defaults (closedAt es) net') :
    Furnished g defaults (es ++ [ev]) net' where
  ids := by
    obtain ⟨hid, -, hsize⟩ := Network.create_object hc
    rw [List.filterMap_append, List.map_append, hf.ids, hsize, List.range_succ]
    simp [hcreated, hid]
  shown ev' hev := by
    obtain ⟨⟨-, hnet⟩, -⟩ := Network.create_eq_ok.1 hc
    rw [closedAt_snoc hrate]
    rcases List.mem_append.1 hev with hev | hev
    · exact (hf.shown ev' hev).continues (hnet ▸ Network.push_continues _ _ _)
    · rw [List.mem_singleton.1 hev]
      exact hshown

/-- The loop of a new object is open. -/
theorem closedAt_new (hf : Furnished g defaults es net) {h : Handle} (hid : h.id = net.size) :
    closedAt es h = none := by
  cases hc : closedAt es h with
  | none => rfl
  | some rate =>
    obtain ⟨n, he⟩ := closedAt_eq_some hc
    have hlt : h.id < net.size := hf.shown _ he
    omega

theorem connect (hf : Furnished g defaults es net) {n : Node} {h rate : Handle}
    (hc : net.connect h rate = .ok net') : Furnished g defaults (es ++ [.connect n h rate]) net' where
  ids := by
    obtain ⟨-, -, input, -, rfl⟩ := Network.connect_eq_ok.1 hc
    simp [Event.created, hf.ids, Network.size]
  shown ev hev := by
    have hclosing : closedAt (es ++ [.connect n h rate]) =
        fun k => (closedAt es k).or (if h = k then some rate else none) := by
      funext k
      rw [closedAt_append]
      simp [closedAt, Event.rate?]
    rw [hclosing]
    rcases List.mem_append.1 hev with hev | hev
    · exact (hf.shown ev hev).connect hc
    · rw [List.mem_singleton.1 hev]
      obtain ⟨-, -, input, hh, rfl⟩ := Network.connect_eq_ok.1 hc
      have hlt := (Array.getElem?_eq_some_iff.1 hh).1
      simpa [Event.Shown, Network.size] using hlt

/-- One object belongs to one event. -/
theorem created_inj (hf : Furnished g defaults es net) {ev ev' : Event} {h h' : Handle} (he : ev ∈ es)
    (he' : ev' ∈ es) (hc : ev.created g = some h) (hc' : ev'.created g = some h')
    (hid : h.id = h'.id) : ev = ev' := by
  have hnodup : ((es.filterMap (Event.created g)).map Handle.id).Nodup := hf.ids ▸ List.nodup_range
  have hpairs : es.Pairwise (Event.Apart g) :=
    List.pairwise_filterMap.1 (List.pairwise_map.1 hnodup)
  by_contra hne
  exact hpairs.forall he he' hne h hc h' hc' hid

/-- Every object belongs to an event. -/
theorem covered (hf : Furnished g defaults es net) {i : Nat} (hi : i < net.size) :
    ∃ ev ∈ es, ∃ h, ev.created g = some h ∧ h.id = i := by
  have hmem : i ∈ (es.filterMap (Event.created g)).map Handle.id := by
    rw [hf.ids]
    exact List.mem_range.2 hi
  obtain ⟨h, hh, hid⟩ := List.mem_map.1 hmem
  obtain ⟨ev, hev, hc⟩ := List.mem_filterMap.1 hh
  exact ⟨ev, hev, h, hc, hid⟩

end Furnished

/-- A kind that asks for an object is no configure node. -/
theorem BuiltinKind.Asks.name_ne [Scalar α] {kind : BuiltinKind α} {config : ResolvedConfig α}
    {inputs : List Handle} {q : Request α} (h : kind.Asks config inputs q) :
    kind.element.name ≠ "configure" := by
  cases h <;> simp [BuiltinKind.element, Element.stimulus, Element.transform, Element.decode,
    Element.slice, Element.bundle, Element.filter]

namespace Realize

variable [Scalar α] {g : Graph α} {opens : List Node} {defaults : Defaults α} {es fs : List Event}
  {r r' : Realization α (Network α)}

/-- The build of an element brings its object, or none for a configure node. -/
theorem Furnished.build (hg : g.Regular Element.IsBuiltin opens)
    (hf : Furnished g defaults es r.target) {n : Node} {rec : NodeRecord α} {e : Element α}
    {config : ResolvedConfig α} {inputs : List Handle} {h : Handle} (hr : g.record? n = some rec)
    (hk : rec.kind = .element e) (hres : g.resolve n e.configurable defaults = .ok config)
    (hc : (converse Target.network (e.lower inputs config)).run r = (.ok h, r')) :
    Furnished g defaults (es ++ [.build n inputs h]) r'.target := by
  obtain ⟨kind, rfl⟩ := hg.isBuiltin hr hk
  have hname : g.kindOf n = kind.element.name := by
    rw [Graph.kindOf, hr]
    simp only [Option.elim_some, hk, NodeKind.name]
  rcases BuiltinKind.converse_request hc with ⟨rfl, ⟨rest, rfl⟩, rfl⟩ | ⟨q, net, hq, hasks, hnet, rfl⟩
  · exact hf.configure hname ⟨rec, _, config, hr, hk, hres, hname, rfl⟩
  · have hne : g.kindOf n ≠ "configure" := hname ▸ hasks.name_ne
    obtain ⟨-, hobject, -⟩ := Network.create_object hnet
    refine hf.create hnet (fun _ => rfl) (by simp [Event.created, hne]) ?_
    refine ⟨rec, _, config, hr, hk, hres, ?_⟩
    rw [hq]
    exact ⟨hne, hasks.not_feedback, hobject⟩

/-- Events furnish the network that they are performed on. -/
theorem Replayed.furnished (hg : g.Regular Element.IsBuiltin opens)
    (h : Replayed Target.network g defaults fs r r') (hf : Furnished g defaults es r.target) :
    Furnished g defaults (es ++ fs) r'.target := by
  induction h generalizing es with
  | nil => rwa [List.append_nil]
  | build hr hk hres hc _ ih =>
    rw [List.append_cons]
    exact ih (Furnished.build hg hf hr hk hres hc)
  | @feedback n u h _ _ _ _ hc _ ih =>
    rw [List.append_cons]
    obtain ⟨net, hnet, rfl⟩ := create_ok.1 hc
    obtain ⟨hid, hobject, -⟩ := Network.create_object hnet
    refine ih (hf.create hnet (fun _ => rfl) rfl ?_)
    change net.objects[h.id]? = some ⟨.feedback u (closedAt es h), h.size⟩
    rw [hobject, hf.closedAt_new hid]
    rfl
  | connect hc _ ih =>
    rw [List.append_cons]
    obtain ⟨net, hnet, rfl⟩ := connect_ok.1 hc
    exact ih (hf.connect hnet)

end Realize

end SignalGraph
