import Mathlib.Data.Set.Function
import SignalGraph.Proofs.Realize.Furnished
import SignalGraph.Proofs.Realize.Placeholders

namespace SignalGraph

open Realize Realization Stateful

variable {α : Type}

/-- A request with other names for what it reads. -/
def Request.rename (f : Handle → Handle) : Request α → Request α
  | source signal => .source signal
  | linear inputs coefficients => .linear (inputs.map f) coefficients
  | nonlinear input function size params => .nonlinear (f input) function size params
  | feedback input => .feedback (f input)
  | filter input tau => .filter (f input) tau
  | slice input indices => .slice (f input) indices

/-- An object with other names for what it reads. -/
def NetworkObject.rename (f : Handle → Handle) : NetworkObject α → NetworkObject α
  | source signal => .source signal
  | linear inputs coefficients => .linear (inputs.map f) coefficients
  | nonlinear input function params => .nonlinear (f input) function params
  | feedback input integrand => .feedback (f input) (integrand.map f)
  | filter input tau => .filter (f input) tau
  | slice input indices => .slice (f input) indices

theorem Request.object_rename (f : Handle → Handle) (q : Request α) :
    (q.rename f).object = q.object.rename f := by
  cases q <;> rfl

theorem Lowering.request_ofExcept {β : Type} {x : Except ParamError β} {next next' : β → Lowering α}
    {f : Request α → Request α} (hnext : ∀ b, (next' b).request = (next b).request.map f) :
    (ofExcept x next').request = (ofExcept x next).request.map f := by
  cases x with
  | error e => rfl
  | ok b => exact hnext b

variable [Scalar α]

/-- Under names that keep the sizes a kind asks for the same object, renamed. -/
theorem BuiltinKind.request_rename (kind : BuiltinKind α) (config : ResolvedConfig α)
    {f : Handle → Handle} {inputs : List Handle} (hf : ∀ w ∈ inputs, (f w).size = w.size) :
    (kind.element.lower (inputs.map f) config).request =
      (kind.element.lower inputs config).request.map (Request.rename f) := by
  cases kind with
  | stimulus signal => rfl
  | transform matrices => rfl
  | decode function size =>
    refine Lowering.request_ofExcept fun name => Lowering.request_ofExcept fun count =>
      Lowering.request_ofExcept fun radius => ?_
    cases NeuronType.ofText? name with
    | error e => rfl
    | ok neuronType =>
      refine Lowering.request_ofExcept fun seed => ?_
      cases inputs <;> rfl
  | bundle =>
    have hsizes : (inputs.map f).map Handle.size = inputs.map Handle.size := by
      rw [List.map_map]
      exact List.map_congr_left hf
    simp only [element, Element.bundle, Lowering.object, Lowering.request, hsizes, Option.map_some,
      Request.rename]
  | filter =>
    refine Lowering.request_ofExcept fun tau => ?_
    cases inputs <;> rfl
  | slice indices => cases inputs <;> rfl
  | configure => cases inputs <;> rfl

namespace Realization

variable {g : Graph α} {opens : List Node} {defaults : Defaults α} {roots : List Node}
  {ws : List Write} {r : Realization α (Network α)} {n : Node} {h : Handle}

/-- A fresh realization on an empty network, behind a run of its roots. -/
structure Finished (g : Graph α) (defaults : Defaults α) (roots : List Node) (ws : List Write)
    (r : Realization α (Network α)) : Prop extends r.Sized g where
  logged : ∃ (first : Network α) (bound : Nat), Logged g bound (.start first) r ws
  complete : Complete g ws
  rooted : ∀ n ∈ roots, ∃ k, r.built n = some k
  reached : ∀ e ∈ ws.flatMap Write.events, g.Reached roots e.node
  furnished : Furnished g defaults (ws.flatMap Write.events) r.target

/-- A fresh run of roots is made of writes that answer them. -/
theorem written_of_makes (hg : g.Regular Element.IsBuiltin opens) {label : Option String}
    {ks : List Handle}
    (hrun : (roots.mapM (make Target.network g defaults)).run (.start (.empty label)) = (.ok ks, r)) :
    ∃ es ws bound, (∀ n ∈ roots, n.index < bound) ∧
      Traced Target.network g defaults roots (.start (.empty label)) es ks r ∧
      Written g bound roots (.start (.empty label)) es ks r ws := by
  obtain ⟨es, ht⟩ := traced_iff.1 (places_of_makes hrun)
  obtain ⟨bound, hns⟩ := indices_bounded roots
  obtain ⟨ws, hw⟩ := ht.written hg hns (owned_start _ bound)
  exact ⟨es, ws, bound, hns, ht, hw⟩

/-- A run of roots from the start on an empty network. -/
theorem Finished.of_makes (hg : g.Regular Element.IsBuiltin opens) {label : Option String}
    {ks : List Handle}
    (hrun : (roots.mapM (make Target.network g defaults)).run (.start (.empty label)) = (.ok ks, r)) :
    ∃ ws, r.Finished g defaults roots ws := by
  obtain ⟨es, ws, bound, hns, ht, hw⟩ := written_of_makes hg hrun
  obtain ⟨hs, -⟩ := ht.sized hg hns (owned_start _ bound) ⟨.empty label, nofun⟩
  have hfurnished := (ht.replayed []).furnished hg (Furnished.empty label)
  obtain rfl := hw.events
  exact ⟨ws, hs, ⟨_, bound, hw.toLogged⟩, hw.complete, fun n hn => forall₂_mem_left hw.answers hn,
    ht.reached, hfurnished⟩

namespace Finished

variable (hr : r.Finished g defaults roots ws) (hg : g.Regular Element.IsBuiltin opens)

include hr hg

/-- The known nodes are those that the roots lead to, and their placeholders. -/
theorem known_iff : (∃ k, r.built n = some k) ↔
    g.Reached roots n ∨ ∃ o, g.Owns o n ∧ g.Reached roots ⟨o⟩ := by
  obtain ⟨first, bound, hl⟩ := hr.logged
  constructor
  · rintro ⟨k, hb⟩
    obtain ⟨w, hw, rfl, rfl⟩ := hl.write_of_built hb
    cases hl.entries w hw with
    | element => exact .inl (hr.reached _ (Logged.mem_events hw (List.mem_singleton_self _)))
    | @placeholder m s _ _ _ rec f hrec hk _ =>
      have he := hr.reached _ (Logged.mem_events hw (List.mem_singleton_self _))
      exact .inr ⟨m.index, ⟨rec, f, hrec, hk⟩, he⟩
    | integrate hrec hk _ =>
      obtain ⟨m, u, -, -, he⟩ := hl.feedback_built hg hb hrec hk
      exact .inl (hr.reached _ he)
    | closed => exact .inl (hr.reached _ (Logged.mem_events hw (List.mem_singleton_self _)))
  · rintro (hn | ⟨o, ⟨rec, f, hrec, hk⟩, hn⟩)
    · exact hl.reached_built hg hr.rooted hn
    · obtain ⟨k, hb⟩ := hl.reached_built hg hr.rooted hn
      exact ⟨k, (hl.integrator_built hg hb hrec hk).1⟩

/-- What a known element was built from, under which parameters and with which object. -/
theorem element {rec : NodeRecord α} {e : Element α} (hb : r.built n = some h)
    (hrec : g.record? n = some rec) (hk : rec.kind = .element e) :
    ∃ inputs config, .build n inputs h ∈ ws.flatMap Write.events ∧
      List.Forall₂ (fun m k => r.built m = some k) rec.inputs inputs ∧
      g.resolve n e.configurable defaults = .ok config ∧
      match (e.lower inputs config).request with
      | none => g.kindOf n = "configure" ∧ inputs.head? = some h
      | some q => g.kindOf n ≠ "configure" ∧ (∀ u c, q.object ≠ .feedback u c) ∧
        r.target.objects[h.id]? = some ⟨q.object, h.size⟩ := by
  obtain ⟨first, bound, hl⟩ := hr.logged
  obtain ⟨inputs, he, hin⟩ := hl.element_built hg hb hrec hk
  obtain ⟨rec', e', config, hrec', hk', hres, hshown⟩ := hr.furnished.shown _ he
  cases hrec.symm.trans hrec'
  cases hk.symm.trans hk'
  exact ⟨inputs, config, he, hin, hres, hshown⟩

/-- A known configure node stands for its input. -/
theorem configure {rec : NodeRecord α} {e : Element α} (hb : r.built n = some h)
    (hrec : g.record? n = some rec) (hk : rec.kind = .element e) (hname : g.kindOf n = "configure") :
    ∃ m, rec.inputs.head? = some m ∧ r.built m = some h := by
  obtain ⟨inputs, config, -, hin, -, hshown⟩ := hr.element hg hb hrec hk
  split at hshown
  · obtain ⟨-, hhead⟩ := hshown
    obtain ⟨ks, rfl⟩ := List.head?_eq_some_iff.1 hhead
    obtain ⟨m, ms, hm, -, hinputs⟩ := List.forall₂_cons_right_iff.1 hin
    exact ⟨m, by rw [hinputs]; rfl, hm⟩
  · exact absurd hname hshown.1

/-- A known placeholder stands for its integrator. -/
theorem placeholder {rec : NodeRecord α} (hb : r.built n = some h) (hrec : g.record? n = some rec)
    (hk : rec.kind = .state) : ∃ o, g.Owns o n ∧ o < g.size ∧ r.built ⟨o⟩ = some h := by
  obtain ⟨first, bound, hl⟩ := hr.logged
  obtain ⟨m, _, u, ho, -, -, he⟩ := hl.placeholder_built hg hb hrec hk
  obtain ⟨hm, rec', s, f, -, hrec', -⟩ := hl.feedback_entry hg hr.complete he
  exact ⟨m.index, ho, Graph.lt_size hrec', hm⟩

/-- A known integrator has its feedback object, which reads what stands for its input and is closed
at what stands for its integrand. -/
theorem integrator {rec : NodeRecord α} {s : Node} {f : Option Node} (hb : r.built n = some h)
    (hrec : g.record? n = some rec) (hk : rec.kind = .integrate s f) :
    r.built s = some h ∧ (∀ m ∈ f, ∃ rate, r.built m = some rate) ∧ ∃ m u, rec.inputs = [m] ∧
      r.built m = some u ∧ .feedback n u h ∈ ws.flatMap Write.events ∧
      r.target.objects[h.id]? = some ⟨.feedback u (f.bind r.built), h.size⟩ := by
  obtain ⟨first, bound, hl⟩ := hr.logged
  obtain ⟨hs, hclosed⟩ := hl.integrator_built hg hb hrec hk
  obtain ⟨m, u, hin, hu, he⟩ := hl.feedback_built hg hb hrec hk
  have hobject : r.target.objects[h.id]? =
      some ⟨.feedback u (closedAt (ws.flatMap Write.events) h), h.size⟩ := hr.furnished.shown _ he
  have hrate : closedAt (ws.flatMap Write.events) h = f.bind r.built := by
    cases hc : closedAt (ws.flatMap Write.events) h with
    | none =>
      cases f with
      | none => rfl
      | some l =>
        obtain ⟨rate, -, hconnect⟩ := hclosed l rfl
        exact absurd hc (closedAt_ne_none hconnect)
    | some rate =>
      -- The loop of another integrator has another object.
      obtain ⟨o, hconnect⟩ := closedAt_eq_some hc
      obtain ⟨ho, l, hl', hlrate⟩ := hl.connect_entry hconnect
      obtain ⟨rec', s', hrec', hk'⟩ := Graph.integrandOf_eq_some.1 hl'
      obtain ⟨_, u', -, -, he'⟩ := hl.feedback_built hg ho hrec' hk'
      cases hr.furnished.created_inj he he' rfl rfl rfl
      cases hrec.symm.trans hrec'
      cases hk.symm.trans hk'
      exact hlrate.symm
  rw [hrate] at hobject
  exact ⟨hs, fun l hl => (hclosed l hl).imp fun _ hrate => hrate.1, m, u, hin, hu, he, hobject⟩

/-- Every object stands for a node. -/
theorem named (hh : r.target.holds h = true) : ∃ ev ∈ ws.flatMap Write.events,
    ev.created g = some h ∧ r.built ev.node = some h := by
  obtain ⟨first, bound, hl⟩ := hr.logged
  obtain ⟨ev, hev, k, hcreated, hid⟩ := hr.furnished.covered (Network.holds_lt hh)
  have hb : r.built ev.node = some k := by
    cases ev with
    | build n inputs w =>
      simp only [Event.created] at hcreated
      split at hcreated
      · cases hcreated
      · cases hcreated
        exact (hl.build_entry hev).1
    | feedback n u w =>
      cases hcreated
      exact (hl.feedback_entry hg hr.complete hev).1
    | connect => cases hcreated
  -- The object that the handle names is the one of the event, so the sizes agree as well.
  obtain ⟨o, ho, hsize⟩ := Network.holds_iff.1 hh
  obtain ⟨o', ho', hsize'⟩ := Network.holds_iff.1 (hr.known _ k hb).2.1
  rw [hid] at ho'
  cases ho.symm.trans ho'
  obtain rfl : k = h := by
    cases k
    cases h
    cases hid
    cases hsize'.symm.trans hsize
    rfl
  exact ⟨ev, hev, hcreated, hb⟩

end Finished

section

variable {roots' : List Node} {ws' : List Write} {r' : Realization α (Network α)}
  (hr : r.Finished g defaults roots ws) (hr' : r'.Finished g defaults roots' ws')
  (hg : g.Regular Element.IsBuiltin opens)
  (hknown : ∀ n, (∃ k, r.built n = some k) ↔ ∃ k, r'.built n = some k)

include hr hr' hg hknown

/-- A known node shares its handle with the node of an event that brought the object, and it does
so in each run: configure nodes with their inputs, placeholders with their integrators. -/
theorem Finished.creator (hb : r.built n = some h) :
    ∃ ev ∈ ws.flatMap Write.events, ev.created g = some h ∧ r.built ev.node = some h ∧
      r'.built n = r'.built ev.node := by
  obtain ⟨i, hi⟩ : ∃ i, n.index = i := ⟨_, rfl⟩
  induction i using Nat.strongRecOn generalizing n with
  | ind i ih =>
    subst hi
    obtain ⟨k', hb'⟩ := (hknown n).1 ⟨h, hb⟩
    obtain ⟨hlt, -⟩ := hr.known n h hb
    obtain ⟨rec, hrec⟩ : ∃ rec, g.record? n = some rec := ⟨_, Array.getElem?_eq_getElem hlt⟩
    cases hk : rec.kind with
    | state =>
      obtain ⟨o, ho, -, hob⟩ := hr.placeholder hg hb hrec hk
      obtain ⟨rec', f, hrec', hk'⟩ := id ho
      obtain ⟨-, -, m, u, -, -, he, -⟩ := hr.integrator hg (n := ⟨o⟩) hob hrec' hk'
      obtain ⟨k, hob'⟩ := (hknown ⟨o⟩).1 ⟨h, hob⟩
      obtain ⟨hs, -⟩ := hr'.integrator hg (n := ⟨o⟩) hob' hrec' hk'
      exact ⟨_, he, rfl, hob, hs.trans hob'.symm⟩
    | integrate s f =>
      obtain ⟨-, -, m, u, -, -, he, -⟩ := hr.integrator hg hb hrec hk
      exact ⟨_, he, rfl, hb, rfl⟩
    | element e =>
      by_cases hname : g.kindOf n = "configure"
      · obtain ⟨m, hm, hmb⟩ := hr.configure hg hb hrec hk hname
        obtain ⟨m', hm', hmb'⟩ := hr'.configure hg hb' hrec hk hname
        cases hm.symm.trans hm'
        obtain ⟨ev, hev, hcreated, hnode, hsame⟩ :=
          ih m.index (Graph.inputs_lt hrec m (List.mem_of_head? hm)) hmb rfl
        exact ⟨ev, hev, hcreated, hnode, hb'.trans (hmb'.symm.trans hsame)⟩
      · obtain ⟨inputs, config, he, -⟩ := hr.element hg hb hrec hk
        exact ⟨_, he, if_neg hname, hb, rfl⟩

/-- Nodes that share a handle in one run share one in the other. -/
theorem Finished.same {m : Node} (hn : r.built n = some h) (hm : r.built m = some h) :
    r'.built n = r'.built m := by
  obtain ⟨ev, hev, hcreated, -, hsame⟩ := hr.creator hr' hg hknown hn
  obtain ⟨ev', hev', hcreated', -, hsame'⟩ := hr.creator hr' hg hknown hm
  cases hr.furnished.created_inj hev hev' hcreated hcreated' rfl
  exact hsame.trans hsame'.symm

end

/-- Realizations that differ in the numbers of their objects only. -/
structure Renamed (f : Handle → Handle) (r r' : Realization α (Network α)) : Prop where
  nodes : ∀ n, r'.built n = (r.built n).map f
  named : ∀ h, r.target.holds h = true → ∃ n, r.built n = some h
  size : ∀ h, r.target.holds h = true → (f h).size = h.size
  bijective : Set.BijOn f {h | r.target.holds h = true} {h | r'.target.holds h = true}
  objects : ∀ h o, r.target.objects[h.id]? = some ⟨o, h.size⟩ →
    r'.target.objects[(f h).id]? = some ⟨o.rename f, h.size⟩

section

variable {roots' : List Node} {ws' : List Write} {r' : Realization α (Network α)}
  {f : Handle → Handle} (hr : r.Finished g defaults roots ws)
  (hr' : r'.Finished g defaults roots' ws') (hg : g.Regular Element.IsBuiltin opens)
  (hf : ∀ n h, r.built n = some h → r'.built n = some (f h))

include hr hr' hg hf

omit hg in
theorem Finished.renamed_size (hb : r.built n = some h) : (f h).size = h.size := by
  obtain ⟨-, -, hsize⟩ := hr.known n h hb
  obtain ⟨-, -, hsize'⟩ := hr'.known n (f h) (hf n h hb)
  exact hsize'.trans hsize.symm

omit [Scalar α] hr hr' hg in
theorem renamed_inputs {ns : List Node} {inputs inputs' : List Handle}
    (hin : List.Forall₂ (fun m k => r.built m = some k) ns inputs)
    (hin' : List.Forall₂ (fun m k => r'.built m = some k) ns inputs') :
    inputs' = inputs.map f := by
  have hmap := forall₂_map_eq (hin.imp hf) (f := r'.built) (g := fun k => some (f k))
  have hmap' := forall₂_map_eq hin' (g := some)
  refine List.map_injective_iff.2 (Option.some_injective _) (hmap'.symm.trans (hmap.trans ?_))
  rw [List.map_map]
  rfl

/-- The object of an event is the same in both runs, but for the names of what it reads. -/
theorem Finished.renamed_object {ev : Event} {o : NetworkObject α}
    (hev : ev ∈ ws.flatMap Write.events) (hcreated : ev.created g = some h)
    (ho : r.target.objects[h.id]? = some ⟨o, h.size⟩) :
    r'.target.objects[(f h).id]? = some ⟨o.rename f, h.size⟩ := by
  obtain ⟨first, bound, hl⟩ := hr.logged
  cases ev with
  | build n inputs k =>
    simp only [Event.created] at hcreated
    split at hcreated
    · cases hcreated
    · rename_i hname
      cases hcreated
      obtain ⟨hb, rec, e, hrec, hk, -⟩ := hl.build_entry hev
      obtain ⟨inputs, config, -, hin, hres, hshown⟩ := hr.element hg hb hrec hk
      obtain ⟨inputs', config', -, hin', hres', hshown'⟩ := hr'.element hg (hf n h hb) hrec hk
      cases hres.symm.trans hres'
      obtain rfl := renamed_inputs hf hin hin'
      obtain ⟨kind, rfl⟩ := hg.isBuiltin hrec hk
      have hsizes : ∀ w ∈ inputs, (f w).size = w.size := by
        intro w hw
        obtain ⟨m, -, hm⟩ := forall₂_mem_right hin hw
        exact hr.renamed_size hr' hf hm
      rw [kind.request_rename config hsizes] at hshown'
      cases hq : (kind.element.lower inputs config).request with
      | none =>
        rw [hq] at hshown
        exact absurd hshown.1 hname
      | some q =>
        rw [hq] at hshown hshown'
        obtain ⟨-, -, hobject⟩ := hshown
        obtain ⟨-, -, hobject'⟩ := hshown'
        cases ho.symm.trans hobject
        rw [hobject', Request.object_rename, hr.renamed_size hr' hf hb]
  | feedback n u k =>
    cases hcreated
    obtain ⟨hb, rec, s, fn, m, hrec, hk, -⟩ := hl.feedback_entry hg hr.complete hev
    obtain ⟨-, hrate, m, u, hin, hu, -, hobject⟩ := hr.integrator hg hb hrec hk
    obtain ⟨-, -, m', u', hin', hu', -, hobject'⟩ := hr'.integrator hg (hf n h hb) hrec hk
    cases hin.symm.trans hin'
    cases (hf m u hu).symm.trans hu'
    cases ho.symm.trans hobject
    have hintegrand : fn.bind r'.built = (fn.bind r.built).map f := by
      cases fn with
      | none => rfl
      | some l =>
        obtain ⟨rate, hl'⟩ := hrate l rfl
        simp [hl', hf l rate hl']
    rw [hobject', hintegrand, hr.renamed_size hr' hf hb]
    rfl
  | connect => cases hcreated

end

variable {roots' : List Node} {ws' : List Write} {r' : Realization α (Network α)}

/-- Two fresh runs of the same roots, in whatever orders, differ in the numbers of objects only. -/
theorem Finished.renamed (hr : r.Finished g defaults roots ws)
    (hr' : r'.Finished g defaults roots' ws') (hg : g.Regular Element.IsBuiltin opens)
    (hsame : ∀ n, g.Reached roots n ↔ g.Reached roots' n) : ∃ f, Renamed f r r' := by
  have hknown : ∀ n, (∃ k, r.built n = some k) ↔ ∃ k, r'.built n = some k := by
    intro n
    rw [hr.known_iff hg, hr'.known_iff hg]
    simp only [hsame]
  have hf : ∀ h, ∃ h', ∀ n, r.built n = some h → r'.built n = some h' := by
    intro h
    by_cases hn : ∃ n, r.built n = some h
    · obtain ⟨n, hb⟩ := hn
      obtain ⟨h', hb'⟩ := (hknown n).1 ⟨h, hb⟩
      exact ⟨h', fun m hm => (hr.same hr' hg hknown hm hb).trans hb'⟩
    · exact ⟨h, fun n hb => absurd ⟨n, hb⟩ hn⟩
  choose f hf using hf
  have hf : ∀ n h, r.built n = some h → r'.built n = some (f h) := fun n h => hf h n
  have hnamed : ∀ h, r.target.holds h = true → ∃ n, r.built n = some h := by
    intro h hh
    obtain ⟨ev, -, -, hb⟩ := hr.named hg hh
    exact ⟨ev.node, hb⟩
  refine ⟨f, fun n => ?_, hnamed, fun h hh => ?_, ⟨fun h hh => ?_, fun h hh k hk he => ?_, ?_⟩,
    fun h o ho => ?_⟩
  · cases hb : r.built n with
    | some h => exact hf n h hb
    | none =>
      cases hb' : r'.built n with
      | none => rfl
      | some h' =>
        obtain ⟨h, hb''⟩ := (hknown n).2 ⟨h', hb'⟩
        rw [hb] at hb''
        cases hb''
  · obtain ⟨n, hb⟩ := hnamed h hh
    exact hr.renamed_size hr' hf hb
  · obtain ⟨n, hb⟩ := hnamed h hh
    exact (hr'.known n (f h) (hf n h hb)).2.1
  · obtain ⟨n, hn⟩ := hnamed h hh
    obtain ⟨m, hm⟩ := hnamed k hk
    have hm' : r'.built m = some (f h) := he ▸ hf m k hm
    have hback := hr'.same hr hg (fun n => (hknown n).symm) (hf n h hn) hm'
    exact Option.some.inj (hn.symm.trans (hback.trans hm))
  · intro h' hh'
    obtain ⟨ev, -, -, hb'⟩ := hr'.named hg hh'
    obtain ⟨h, hb⟩ := (hknown ev.node).2 ⟨h', hb'⟩
    exact ⟨h, (hr.known _ h hb).2.1, Option.some.inj ((hf _ h hb).symm.trans hb')⟩
  · obtain ⟨ev, hev, hcreated, -⟩ := hr.named hg (Network.holds_iff.2 ⟨_, ho, rfl⟩)
    exact hr.renamed_object hr' hg hf hev hcreated ho

end Realization

namespace Realize

variable {g : Graph α} {opens : List Node} {defaults : Defaults α} {ns roots : List Node}
  {es : List Event} {ks : List Handle} {r r' : Realization α (Network α)}

/-- An element that was built was accepted. -/
theorem Traced.accepts (hg : g.Regular Element.IsBuiltin opens)
    (h : Traced Target.network g defaults ns r es ks r') {n : Node} {inputs : List Handle} {k : Handle}
    (he : .build n inputs k ∈ es) : g.Accepts defaults n := by
  induction h with
  | nil => cases he
  | known _ _ ih => exact ih he
  | @element m rec e _ _ _ _ _ _ _ _ _ _ _ _ hr hk ho hres _ hc _ _ ihin ih =>
    simp only [List.mem_append, List.mem_cons] at he
    rcases he with he | he | he
    · exact ihin he
    · cases he
      exact accepts_of_converse hg hr hk ho hres hc
    · exact ih he
  | integrate _ _ _ _ _ _ ihin ih =>
    simp only [List.mem_append, List.mem_cons, reduceCtorEq, false_or] at he
    rcases he with he | he
    · exact ihin he
    · exact ih he
  | closed _ _ _ _ _ _ _ _ ihin ihf ih =>
    simp only [List.mem_append, List.mem_cons, reduceCtorEq, false_or] at he
    rcases he with he | he | he
    · exact ihin he
    · exact ihf he
    · exact ih he

/-- The roots are known by the handles that they are answered with. -/
theorem makes_answers (hg : g.Regular Element.IsBuiltin opens) {label : Option String}
    (hrun : (roots.mapM (make Target.network g defaults)).run (.start (.empty label)) = (.ok ks, r)) :
    List.Forall₂ (fun n k => r.built n = some k) roots ks := by
  obtain ⟨_, _, _, -, -, hw⟩ := written_of_makes hg hrun
  exact hw.answers

/-- Roots that use placeholders inside their integrands only are made by a fresh run exactly if all
the elements that they lead to are accepted. -/
theorem makes_iff (hg : g.Regular Element.IsBuiltin opens) (hscoped : ∀ n ∈ roots, g.Scoped [] n)
    (label : Option String) :
    (∃ ks r, (roots.mapM (make Target.network g defaults)).run (.start (.empty label)) = (.ok ks, r)) ↔
      ∀ n, g.Reached roots n → g.Accepts defaults n := by
  constructor
  · rintro ⟨ks, r, hrun⟩ n hn rec e hr hk
    obtain ⟨es, ws, bound, -, ht, hw⟩ := written_of_makes hg hrun
    obtain ⟨k, hb⟩ := hw.reached_built hg (fun m hm => forall₂_mem_left hw.answers hm) hn
    obtain ⟨inputs, he, -⟩ := hw.element_built hg hb hr hk
    rw [hw.events] at he
    exact ht.accepts hg he rec e hr hk
  · intro haccept
    obtain ⟨bound, hns⟩ := indices_bounded roots
    have hstart : (Realization.start (Network.empty (α := α) label)).Entered g bound :=
      ⟨⟨⟨.empty label, nofun⟩, owned_start _ bound, nofun⟩, _, 0, [], .refl g 0 _⟩
    have hearly : ∀ s, ¬g.UsedEarly s roots := by
      intro s hs
      obtain ⟨n, hn, hs⟩ := hs.exists_mem
      exact absurd ((hscoped n hn).usedEarly hg nofun hs) List.not_mem_nil
    have hdecided : Decided g defaults roots (.start (.empty label)) := by
      refine .nodes hg hns (fun n hn q hq => ?_) hstart
      refine .node hg (hscoped n hn).lt (fun m hm => haccept m (hm.through fun l hl => ?_)) hq
      exact List.mem_singleton.1 hl ▸ .root hn
    cases hdecided with
    | unbound _ hs _ => exact absurd hs (hearly _)
    | realized ht _ => exact ⟨_, _, makes_of_places rfl (traced_iff.2 ⟨_, ht⟩)⟩

end Realize

/-- The same roots made in two orders by fresh realizations on empty networks, each root using
placeholders only inside the integrands of their integrators. Both runs succeed or both fail. When
both succeed, the same nodes are known, and one renaming of handles leads from those of the one run
to those of the other: it goes one to one between the objects of the networks, keeps their sizes,
and turns each object into one of the same kind, with the same parameters, that reads the renamed
inputs and is closed at the renamed integrand. -/
theorem orders_agree {g : Graph α} {opens : List Node} {defaults : Defaults α}
    {roots roots' : List Node} (hg : g.Grown Element.IsBuiltin opens)
    (hsame : ∀ n, n ∈ roots ↔ n ∈ roots') (hscoped : ∀ n ∈ roots, g.Scoped [] n)
    (label label' : Option String) :
    ((∃ hs r, (roots.mapM (make Target.network g defaults)).run (.start (.empty label)) =
        (.ok hs, r)) ↔
      ∃ hs r, (roots'.mapM (make Target.network g defaults)).run (.start (.empty label')) =
        (.ok hs, r)) ∧
    ∀ hs r hs' r',
      (roots.mapM (make Target.network g defaults)).run (.start (.empty label)) = (.ok hs, r) →
      (roots'.mapM (make Target.network g defaults)).run (.start (.empty label')) = (.ok hs', r') →
        ∃ f, Renamed f r r' := by
  have hregular := hg.regular
  have hreached : ∀ n, g.Reached roots n ↔ g.Reached roots' n := fun n =>
    ⟨fun h => h.through fun m hm => .root ((hsame m).1 hm),
      fun h => h.through fun m hm => .root ((hsame m).2 hm)⟩
  refine ⟨?_, fun hs r hs' r' hrun hrun' => ?_⟩
  · rw [makes_iff hregular hscoped, makes_iff hregular fun n hn => hscoped n ((hsame n).2 hn)]
    simp only [hreached]
  · obtain ⟨ws, hr⟩ := Finished.of_makes hregular hrun
    obtain ⟨ws', hr'⟩ := Finished.of_makes hregular hrun'
    exact hr.renamed hr' hregular hreached

/-- Two sources, an integrator of the first whose state rate neurons feed back, and the second
component of the other. -/
def twoRoots : Build ℚ Node := do
  let u ← Build.stimulus (.constant [1])
  let v ← Build.stimulus (.constant [2, 3])
  let _ ← Build.integrate u (some fun x => Build.decode x (fun v => v) none
    (KeyMap.empty.insert "neuron_type" (.text "lif_rate")))
  Build.slice v [1]

def twoRootsGraph : Graph ℚ := twoRoots.graph

theorem twoRootsGraph_grown : twoRootsGraph.Grown Element.IsBuiltin [] := by
  have hall : ∀ k : BuiltinKind ℚ, k.element.IsBuiltin := fun k => ⟨k, rfl⟩
  have hk : Build.Keeps Element.IsBuiltin twoRoots := by
    refine (Build.keeps_stimulus hall _).bind fun u => (Build.keeps_stimulus hall _).bind fun v =>
      Build.Keeps.bind ?_ fun x => Build.keeps_slice hall _ _
    refine Build.keeps_integrate _ ?_
    rintro _ ⟨⟩ x
    exact Build.keeps_decode hall _ _ _ _
  exact hk.grown

/-- The integrator has the second object or the fourth. -/
theorem twoRoots_agree :
    twoRootsGraph.Grown Element.IsBuiltin [] ∧ twoRootsGraph.Scoped [] ⟨4⟩ ∧
      twoRootsGraph.Scoped [] ⟨5⟩ ∧ ∃ (r r' : Realization ℚ (Network ℚ)) (f : Handle → Handle),
        ([⟨4⟩, ⟨5⟩].mapM (make Target.network twoRootsGraph .standard)).run (.start (.empty none)) =
          (.ok [⟨1, 1⟩, ⟨4, 1⟩], r) ∧
        ([⟨5⟩, ⟨4⟩].mapM (make Target.network twoRootsGraph .standard)).run (.start (.empty none)) =
          (.ok [⟨1, 1⟩, ⟨3, 1⟩], r') ∧
        Renamed f r r' ∧ f ⟨1, 1⟩ = ⟨3, 1⟩ := by
  have hscoped : ∀ n ∈ [⟨4⟩, ⟨5⟩], twoRootsGraph.Scoped [] n := by decide +kernel
  have hsame : ∀ n : Node, n ∈ [⟨4⟩, ⟨5⟩] ↔ n ∈ [⟨5⟩, ⟨4⟩] := by simp [or_comm]
  have hrun : ∃ r : Realization ℚ (Network ℚ),
      ([⟨4⟩, ⟨5⟩].mapM (make Target.network twoRootsGraph .standard)).run (.start (.empty none)) =
        (.ok [⟨1, 1⟩, ⟨4, 1⟩], r) :=
    ⟨_, Prod.ext (by decide +kernel) rfl⟩
  have hrun' : ∃ r : Realization ℚ (Network ℚ),
      ([⟨5⟩, ⟨4⟩].mapM (make Target.network twoRootsGraph .standard)).run (.start (.empty none)) =
        (.ok [⟨1, 1⟩, ⟨3, 1⟩], r) :=
    ⟨_, Prod.ext (by decide +kernel) rfl⟩
  obtain ⟨r, hrun⟩ := hrun
  obtain ⟨r', hrun'⟩ := hrun'
  obtain ⟨-, hrenamed⟩ := orders_agree twoRootsGraph_grown hsame hscoped none none
  obtain ⟨f, hf⟩ := hrenamed _ _ _ _ hrun hrun'
  have hb : r.built ⟨4⟩ = some ⟨1, 1⟩ :=
    forall₂_getElem? (makes_answers twoRootsGraph_grown.regular hrun) (k := 0) rfl rfl
  have hb' : r'.built ⟨4⟩ = some ⟨3, 1⟩ :=
    forall₂_getElem? (makes_answers twoRootsGraph_grown.regular hrun') (k := 1) rfl rfl
  have hnode := hf.nodes ⟨4⟩
  rw [hb, hb'] at hnode
  exact ⟨twoRootsGraph_grown, hscoped _ (by simp), hscoped _ (by simp), r, r', f, hrun, hrun', hf,
    (Option.some.inj hnode).symm⟩

end SignalGraph
