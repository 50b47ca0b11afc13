import SignalGraph.Proofs.Lowering.Refinement
import SignalGraph.Proofs.Realize.Sessions
import SignalGraph.Proofs.Simulation.Safety

namespace SignalGraph

open Realize Realization Stateful

variable {α : Type} [Scalar α]

omit [Scalar α] in
/-- Objects stay as they are, but for the loops that are closed. -/
theorem Network.Grows.object {net net' : Network α} (hg : net.Grows net') {i n : Nat}
    {o : NetworkObject α} (ho : net.objects[i]? = some ⟨o, n⟩) (hne : ∀ u f, o ≠ .feedback u f) :
    net'.objects[i]? = some ⟨o, n⟩ := by
  obtain ⟨r, hr, hb⟩ := hg i _ ho
  cases hb with
  | same => exact hr
  | closed u f => exact absurd rfl (hne u none)

/-- What an event leaves: an element has a handle of its size and, if it is of a built-in kind, the
object that it asks for; a feedback object has the size of its input. A configure node has no object
of its own. -/
def Event.Left (g : Graph α) (net : Network α) : Event → Prop
  | build n inputs h =>
    ∃ rec e, g.record? n = some rec ∧ rec.kind = .element e ∧ h.size = rec.size ∧
      ∀ kind : BuiltinKind α, e = kind.element → kind ≠ .configure →
        ∃ config q, kind.Asks config inputs q ∧ net.objects[h.id]? = some ⟨q.object, h.size⟩
  | feedback _ u h => h.size = u.size
  | connect .. => True

theorem Event.Left.mono {g g' : Graph α} {net net' : Network α} {e : Event} (h : e.Left g net)
    (he : g.Extends g') (hg : net.Grows net') : e.Left g' net' := by
  cases e with
  | build n inputs k =>
    obtain ⟨rec, e, hr, hk, hsize, hobject⟩ := h
    refine ⟨rec, e, he.record? hr, hk, hsize, fun kind hkind hne => ?_⟩
    obtain ⟨config, q, hq, ho⟩ := hobject kind hkind hne
    exact ⟨config, q, hq, hg.object ho hq.not_feedback⟩
  | feedback => exact h
  | connect => trivial

namespace Realize

variable {g : Graph α} {defaults : Defaults α} {ns : List Node} {es : List Event}
  {hs : List Handle} {r r' : Realization α (Network α)}

/-- Whatever an element asks for, the objects that were there stay. -/
theorem converse_grows {l : Lowering α} {k : Handle}
    (hc : (converse Target.network l).run r = (.ok k, r')) : r.target.Grows r'.target := by
  induction l generalizing r with
  | done k =>
    obtain ⟨-, rfl⟩ := pure_ok.1 hc
    exact .refl _
  | fail e => exact absurd hc throw_ok
  | create q next ih =>
    simp only [converse, bind_ok, create_ok] at hc
    obtain ⟨k, _, ⟨net, hcreate, rfl⟩, hc⟩ := hc
    obtain ⟨⟨-, rfl⟩, -⟩ := Network.create_eq_ok.1 hcreate
    exact (Network.push_grows _ _ _).trans (ih k hc)
  | connect a b next ih =>
    simp only [converse, bind_ok, connect_ok] at hc
    obtain ⟨_, _, ⟨net, hconnect, rfl⟩, hc⟩ := hc
    exact (Network.connect_grows hconnect).trans (ih hc)
  | partialConnections next ih =>
    simp only [converse, bind_ok, get_ok] at hc
    obtain ⟨_, _, ⟨rfl, rfl⟩, hc⟩ := hc
    exact ih _ hc
  | report q next ih =>
    simp only [converse, bind_ok, modify_ok] at hc
    obtain ⟨_, _, rfl, hc⟩ := hc
    exact @ih { r with reports := r.reports.push q } hc

/-- What the conversation of an element leaves. -/
theorem build_left {n : Node} {rec : NodeRecord α} {e : Element α} {config : ResolvedConfig α}
    {inputs : List Handle} {h : Handle} (hr : g.record? n = some rec) (hk : rec.kind = .element e)
    (hc : (converse Target.network (e.lower inputs config)).run r = (.ok h, r'))
    (hsize : h.size = rec.size) : (Event.build n inputs h).Left g r'.target := by
  refine ⟨rec, e, hr, hk, hsize, ?_⟩
  rintro kind rfl hne
  rcases BuiltinKind.converse_ok hc with ⟨hkind, -⟩ | ⟨q, net, hq, hcreate, rfl⟩
  · exact absurd hkind hne
  · exact ⟨config, q, hq, (Network.create_object hcreate).2.1⟩

theorem feedback_left (n : Node) {u h : Handle}
    (hc : (onTarget (Target.network.create (.feedback u))).run r = (.ok h, r')) :
    (Event.feedback n u h).Left g r'.target ∧ r.target.Grows r'.target := by
  obtain ⟨net, hcreate, rfl⟩ := create_ok.1 hc
  obtain ⟨⟨rfl, rfl⟩, -⟩ := Network.create_eq_ok.1 hcreate
  exact ⟨rfl, Network.push_grows _ _ _⟩

/-- What the events of a trace leave is there at its end. -/
theorem Traced.left (h : Traced Target.network g defaults ns r es hs r') :
    r.target.Grows r'.target ∧ ∀ e ∈ es, e.Left g r'.target := by
  induction h with
  | nil r => exact ⟨.refl _, nofun⟩
  | known _ _ ih => exact ih
  | element _ hrec hk _ _ _ hc hsize _ ihin ih =>
    obtain ⟨hgin, hin⟩ := ihin
    obtain ⟨hgrest, hrest⟩ := ih
    have hbuild := build_left hrec hk hc hsize
    refine ⟨(hgin.trans (converse_grows hc)).trans hgrest, fun e he => ?_⟩
    rcases List.mem_append.1 he with he | he
    · exact (hin e he).mono (.refl g) ((converse_grows hc).trans hgrest)
    · rcases List.mem_cons.1 he with rfl | he
      · exact hbuild.mono (.refl g) hgrest
      · exact hrest e he
  | @integrate n _ _ _ _ _ _ _ _ _ _ _ _ _ _ _ _ _ hc _ ihin ih =>
    obtain ⟨hgin, hin⟩ := ihin
    obtain ⟨hgrest, hrest⟩ := ih
    obtain ⟨hopen, hgopen⟩ := @feedback_left α _ g _ _ n _ _ hc
    refine ⟨(hgin.trans hgopen).trans hgrest, fun e he => ?_⟩
    rcases List.mem_append.1 he with he | he
    · exact (hin e he).mono (.refl g) (hgopen.trans hgrest)
    · rcases List.mem_cons.1 he with rfl | he
      · exact hopen
      · exact hrest e he
  | @closed n _ _ _ _ _ _ _ _ _ _ _ _ _ _ _ _ _ _ _ _ _ _ hc _ hconnect _ ihin ihf ih =>
    obtain ⟨hgin, hin⟩ := ihin
    obtain ⟨hgf, hf⟩ := ihf
    obtain ⟨hgrest, hrest⟩ := ih
    obtain ⟨hopen, hgopen⟩ := @feedback_left α _ g _ _ n _ _ hc
    obtain ⟨net, hnet, rfl⟩ := connect_ok.1 hconnect
    have hgclose := (Network.connect_grows hnet).trans hgrest
    refine ⟨((hgin.trans hgopen).trans hgf).trans hgclose, fun e he => ?_⟩
    simp only [List.mem_append, List.mem_cons] at he
    rcases he with he | rfl | he | rfl | he
    · exact (hin e he).mono (.refl g) ((hgopen.trans hgf).trans hgclose)
    · exact hopen
    · exact (hf e he).mono (.refl g) hgclose
    · trivial
    · exact hrest e he

end Realize

/-- Graphs that construction leads to, with elements of any kind. -/
def Graph.Constructed (g : Graph α) : Prop := ∃ opens, g.Grown (fun _ => True) opens

/-- Realizations of constructed graphs on networks, as `Session` has them for built-in elements: a
network that calls have led to, nodes that are asked for with success, more calls on the network,
and more nodes in the graph. -/
inductive Usage (defaults : Defaults α) : Graph α → Realization α (Network α) → Prop
  | start {g : Graph α} {net : Network α} :
    g.Constructed → net.Reachable → Usage defaults g (.start net)
  | make {g : Graph α} {r r' : Realization α (Network α)} {n : Node} {h : Handle} :
    Usage defaults g r → (make Target.network g defaults n).run r = (.ok h, r') →
      Usage defaults g r'
  | call {g : Graph α} {r : Realization α (Network α)} (c : Call α) :
    Usage defaults g r →
      Usage defaults g { r with target := ((c.perform Target.network).run r.target).2 }
  | grow {g g' : Graph α} {r : Realization α (Network α)} :
    Usage defaults g r → g'.Constructed → g.Extends g' → Usage defaults g' r

/-- What is known was written by complete runs, and what their events left is there. -/
structure Realization.Backed (g : Graph α) (r : Realization α (Network α)) (ws : List Write) :
    Prop where
  reachable : r.target.Reachable
  logged : ∃ (first : Network α) (bound : Nat), Logged g bound (.start first) r ws
  complete : Complete g ws
  left : ∀ e ∈ ws.flatMap Write.events, e.Left g r.target

namespace Realization.Backed

variable {g g' : Graph α} {opens : List Node} {allowed : Element α → Prop} {defaults : Defaults α}
  {r r' : Realization α (Network α)} {ws : List Write}

theorem make (h : r.Backed g ws) (hg : g.Regular allowed opens) {n : Node} {k : Handle}
    (hm : (make Target.network g defaults n).run r = (.ok k, r')) :
    (∃ ws', r'.Backed g ws') ∧ r'.built n = some k := by
  obtain ⟨first, b, hl⟩ := h.logged
  obtain ⟨es, ht⟩ := traced_of_place (make_ok.1 hm).2
  have hns : ∀ m ∈ [n], m.index < n.index + 1 :=
    List.forall_mem_singleton.2 (Nat.lt_succ_self n.index)
  have hintact : r.Intact g := ⟨first, b, ws, hl, h.complete⟩
  obtain ⟨ws', hw⟩ := ht.written hg hns (hintact.owned _)
  obtain ⟨hgrows, hleft⟩ := ht.left
  refine ⟨⟨ws ++ ws', make_reachable h.reachable hm, ⟨first, _,
    (hl.mono (Nat.le_max_left b _)).append (hw.toLogged.mono (Nat.le_max_right b _))⟩,
    h.complete.append hw.complete, fun e he => ?_⟩, (List.forall₂_cons.1 hw.answers).1⟩
  rw [List.flatMap_append, hw.events] at he
  rcases List.mem_append.1 he with he | he
  · exact (h.left e he).mono (.refl g) hgrows
  · exact hleft e he

theorem call (h : r.Backed g ws) (c : Call α) :
    ({ r with target := ((c.perform Target.network).run r.target).2 } :
      Realization α (Network α)).Backed g ws := by
  obtain ⟨first, b, hl⟩ := h.logged
  obtain ⟨hr, hgrows⟩ := Network.perform_step c h.reachable
  exact ⟨hr, ⟨first, b, ⟨hl.memo, hl.poisoned, hl.nodup, hl.fresh, hl.entries⟩⟩, h.complete,
    fun e he => (h.left e he).mono (.refl g) hgrows⟩

theorem grow (h : r.Backed g ws) (hg' : g'.Regular allowed opens) (he : g.Extends g') :
    r.Backed g' ws := by
  obtain ⟨first, b, hl⟩ := h.logged
  exact ⟨h.reachable, ⟨first, b, hl.extend he⟩, h.complete.extend hl hg' he,
    fun e hw => (h.left e hw).mono he (.refl _)⟩

/-- Known nodes have handles of their sizes. The induction is on the place of the node: a
placeholder has the size of its integrator's input, and an integrator the handle of its
placeholder. -/
theorem size (h : r.Backed g ws) (hg : g.Regular allowed opens) {n : Node} {k : Handle}
    (hb : r.built n = some k) : k.size = g.sizeOf n := by
  obtain ⟨first, b, hl⟩ := h.logged
  obtain ⟨i⟩ := n
  induction i using Nat.strongRecOn generalizing k with
  | ind i ih =>
    have hintegrator : ∀ {rec : NodeRecord α} {s : Node} {f : Option Node},
        g.record? ⟨i⟩ = some rec → rec.kind = .integrate s f → r.built s = some k →
          k.size = g.sizeOf ⟨i⟩ := by
      intro rec s f hr hk hs
      obtain ⟨u, f', ho, hstate⟩ := hg.owns ⟨rec, f, hr, hk⟩
      rw [ih s.index (Graph.placeholder_lt hr hk) hs, Graph.sizeOf_record hstate,
        Graph.sizeOf_record (n := ⟨i⟩) ho]
    obtain ⟨w, hw, hn, rfl⟩ := hl.write_of_built hb
    cases hl.entries w hw with
    | @element n' _ rec e inputs hr hk hin =>
      obtain ⟨rec', _, hr', -, hsize, -⟩ :=
        h.left _ (Logged.mem_events hw (List.mem_singleton_self _))
      cases hn
      rw [hsize, Graph.sizeOf_record hr']
    | @placeholder n' s _ u us rec f hr hk hin =>
      obtain ⟨m, f', ho, hstate⟩ := hg.owns ⟨rec, f, hr, hk⟩
      cases hr.symm.trans ho
      cases hn
      have hsize : Handle.size _ = u.size :=
        h.left _ (Logged.mem_events hw (List.mem_singleton_self _))
      obtain ⟨hm, -⟩ := List.forall₂_cons.1 hin
      have hlt : m.index < i := Graph.inputs_lt hstate m List.mem_cons_self
      rw [hsize, ih m.index hlt hm, Graph.sizeOf_record hstate]
    | integrate hr hk hs =>
      cases hn
      exact hintegrator hr hk hs
    | closed hr hk hs _ =>
      cases hn
      exact hintegrator hr hk hs

end Realization.Backed

namespace Usage

variable {defaults : Defaults α} {g : Graph α} {r : Realization α (Network α)}

theorem backed (h : Usage defaults g r) :
    ∃ ws opens, g.Regular (fun _ => True) opens ∧ r.Backed g ws := by
  induction h with
  | @start g net hg hr =>
    obtain ⟨opens, hg⟩ := hg
    exact ⟨[], opens, hg.regular, hr, ⟨net, 0, .refl g 0 _⟩, nofun, nofun⟩
  | make _ hm ih =>
    obtain ⟨ws, opens, hg, hb⟩ := ih
    obtain ⟨⟨ws', hb'⟩, -⟩ := hb.make hg hm
    exact ⟨ws', opens, hg, hb'⟩
  | call c _ ih =>
    obtain ⟨ws, opens, hg, hb⟩ := ih
    exact ⟨ws, opens, hg, hb.call c⟩
  | grow _ hg' he ih =>
    obtain ⟨ws, -, -, hb⟩ := ih
    obtain ⟨opens, hg'⟩ := hg'
    exact ⟨ws, opens, hg'.regular, hb.grow hg'.regular he⟩

/-- An element of a built-in kind has the object that it asks for, of its size, and what it asks
with are the handles of its inputs, of theirs. -/
theorem asks (h : Usage defaults g r) {n : Node} {k : Handle} {rec : NodeRecord α}
    {kind : BuiltinKind α} (hb : r.built n = some k) (hr : g.record? n = some rec)
    (hk : rec.kind = .element kind.element) (hne : kind ≠ .configure) :
    ∃ config inputs q, List.Forall₂ (fun m w => r.built m = some w) rec.inputs inputs ∧
      inputs.map Handle.size = rec.inputs.map g.sizeOf ∧ kind.Asks config inputs q ∧
        r.target.objects[k.id]? = some ⟨q.object, rec.size⟩ := by
  obtain ⟨ws, opens, hg, hbacked⟩ := h.backed
  obtain ⟨first, b, hl⟩ := hbacked.logged
  obtain ⟨inputs, he, hin⟩ := hl.element_built hg hb hr hk
  obtain ⟨rec', e, hr', hk', hsize, hobject⟩ := hbacked.left _ he
  cases hr.symm.trans hr'
  obtain ⟨config, q, hq, ho⟩ := hobject kind (by cases hk.symm.trans hk'; rfl) hne
  refine ⟨config, inputs, q, hin, ?_, hq, hsize ▸ ho⟩
  exact (forall₂_map_eq (hin.imp fun m w hm => (hbacked.size hg hm).symm)).symm

end Usage

/-- Values that the objects of a network have in a step that a simulator of it has recorded. -/
def Network.Observed (net : Network α) (v : Values α) : Prop :=
  ∃ (b : Backend) (dt : α) (s : Simulator α) (commands : List Simulator.Command) (k : Nat),
    b.engine.build net dt = .ok s ∧ s.Recorded (s.after commands) k v

theorem Simulator.Reaches.kernel {s s' : Simulator α} (h : s.Reaches s') :
    s'.kernel = s.kernel := by
  induction h with
  | start => rfl
  | step _ ih => rw [step_kernel, ih]

/-- What is recorded settles the values of the step before. -/
theorem Network.Observed.settles [Scalar.Exact α] {net : Network α} {v : Values α}
    (h : net.Observed v) (hw : net.WellFormed) : ∃ (c : Circuit α) (dt t : α) (old : Values α),
      c.Made net dt ∧ c.Settles Kernel.sequential t old v ∧ c.Sized v := by
  obtain ⟨b, dt, s, commands, k, hb, u, u', hreach, -, hsweep, hstep, -⟩ := h
  have hu := (Backend.simulates hb hw).reaches hreach
  obtain ⟨v', hsettles, hsized, hsweep', -⟩ := hu.settled hstep
  cases hsweep.symm.trans hsweep'
  rw [hreach.kernel, Backend.build_kernel hb] at hsettles
  exact ⟨u.circuit, dt, u.nextTime, u.values, hu.made, hsettles, hsized⟩

/-- A first step that succeeds is recorded. -/
theorem Network.WellFormed.observed [Scalar.Exact α] {net : Network α} (hw : net.WellFormed)
    {b : Backend} {dt : α} {s : Simulator α} (hb : b.engine.build net dt = .ok s)
    (hstep : s.step.1 = .ok ()) : ∃ v, net.Observed v := by
  have hs : s.step = (.ok (), s.step.2) := Prod.ext hstep rfl
  obtain ⟨v, -, -, hsweep, -⟩ := ((Backend.simulates hb hw).reaches .start).settled hs
  exact ⟨v, b, dt, s, [.step], s.steps, hb, s, s.step.2, .start, rfl, hsweep, hs, .start⟩

/-- A node that is realized on an empty network whose first step succeeds. -/
theorem Graph.Constructed.observed [Scalar.Exact α] {g : Graph α} (hg : g.Constructed)
    {defaults : Defaults α} {n : Node} {k : Handle} {r : Realization α (Network α)} {b : Backend}
    {dt : α} (hrun : (make Target.network g defaults n).run (.start (.empty none)) = (.ok k, r))
    (hstep : (fun s => s.step.1) <$> b.engine.build r.target dt = .ok (.ok ())) :
    Usage defaults g r ∧ r.built n = some k ∧ ∃ v, r.target.Observed v := by
  have hstart : Usage defaults g (.start (.empty none)) := .start hg (.empty none)
  have hmake := hstart.make hrun
  obtain ⟨_, _, hregular, hbacked⟩ := hstart.backed
  obtain ⟨_, _, _, hbacked'⟩ := hmake.backed
  obtain ⟨s, hs, hok⟩ := map_eq_ok.1 hstep
  exact ⟨hmake, (hbacked.make hregular hrun).2, hbacked'.reachable.wellFormed.observed hs hok⟩

/-- Whether the object computes its values as they are, without neurons. -/
def NetworkObject.Direct : NetworkObject α → Prop
  | nonlinear _ _ params => params.neuronType = .direct
  | _ => True

instance : DecidablePred (NetworkObject.Direct (α := α))
  | .nonlinear _ _ params => inferInstanceAs (Decidable (params.neuronType = .direct))
  | .source _ | .linear .. | .feedback .. | .filter .. | .slice .. => isTrue trivial

namespace Graph

/-- What the node `n` is wherever it is realized: its object is of its size and as `P` says, and the
nodes `ms` are realized too. Where the object takes no neurons, its value in each recorded step is
the one that `f` gives of their values, which have their sizes. -/
def Evaluates (g : Graph α) (P : NetworkObject α → Prop) (n : Node) (ms : List Node)
    (f : List (List α) → List α) : Prop :=
  ∀ (defaults : Defaults α) (g' : Graph α) (r : Realization α (Network α)) (h : Handle),
    g.Extends g' → Usage defaults g' r → r.built n = some h →
      ∃ o hs, r.target.objects[h.id]? = some ⟨o, g.sizeOf n⟩ ∧ P o ∧
        List.Forall₂ (fun m k => r.built m = some k) ms hs ∧
        (o.Direct → ∀ v, r.target.Observed v →
          hs.map (fun k => (v.of k.id).length) = ms.map g.sizeOf ∧
            v.of h.id = f (hs.map fun k => v.of k.id))

/-- The node `n` has the value that `f` gives of the values of `ms`. -/
def Computes (g : Graph α) (n : Node) (ms : List Node) (f : List (List α) → List α) : Prop :=
  g.Evaluates NetworkObject.Direct n ms f

end Graph

namespace Usage

variable {defaults : Defaults α} {g : Graph α} {r : Realization α (Network α)}

/-- The value of an element whose kind has no memory: where a function is not approximated, it is
the one that the kind has from the values of its inputs. -/
theorem row [Scalar.Exact α] (h : Usage defaults g r) {n : Node} {k : Handle} {rec : NodeRecord α}
    {kind : BuiltinKind α} (hb : r.built n = some k) (hr : g.record? n = some rec)
    (hk : rec.kind = .element kind.element) (hconfigure : kind ≠ .configure)
    (hfilter : kind ≠ .filter)
    (hbundle : kind = .bundle → rec.size = (rec.inputs.map g.sizeOf).sum) :
    ∃ config inputs q, List.Forall₂ (fun m w => r.built m = some w) rec.inputs inputs ∧
      inputs.map Handle.size = rec.inputs.map g.sizeOf ∧ kind.Asks config inputs q ∧
      r.target.objects[k.id]? = some ⟨q.object, rec.size⟩ ∧
      ∀ v, r.target.Observed v → (∀ w ∈ q.object.reads, (v.of w.id).length = w.size) ∧
        (q.object.Direct → ∃ t, v.of k.id =
          kind.row rec.size t Scalar.zero [] (inputs.map fun w => v.of w.id)) := by
  obtain ⟨config, inputs, q, hin, hsizes, hq, hobject⟩ := h.asks hb hr hk hconfigure
  obtain ⟨_, _, _, hbacked⟩ := h.backed
  have hw := hbacked.reachable.wellFormed
  have hsound := hw.sound _ _ hobject
  refine ⟨config, inputs, q, hin, hsizes, hq, hobject, fun v hv => ?_⟩
  obtain ⟨c, dt, t, old, hm, hsettles, hsized⟩ := hv.settles hw
  have hread : ∀ w ∈ q.object.reads, (v.of w.id).length = w.size :=
    fun w hw => hm.read_length hsized (hsound.reads w hw).2
  refine ⟨hread, fun hdirect => ⟨t, ?_⟩⟩
  obtain ⟨p, hp, hout⟩ := hm.settled hsettles hobject
  rw [← BuiltinKind.row_congr hfilter rec.size t Scalar.zero (old.of k.id) []]
  refine BuiltinKind.output_row_of_asks hq ?_ (fun _ hkind => absurd hkind hfilter) ?_ hsound.fits
    hread hp hout
  · rintro function size name type rfl hname htype
    cases hq with
    | decode _ _ _ _ name' params hname' htype' =>
      cases hname.symm.trans hname'
      cases htype.symm.trans htype'
      exact hdirect
  · intro hkind
    rw [hbundle hkind, hsizes]

end Usage

namespace Graph

variable {g g' : Graph α} {P : NetworkObject α → Prop} {n : Node} {ns ms : List Node}
  {f f' : List (List α) → List α}

omit [Scalar α] in
theorem Extends.sizes (he : g.Extends g') (hms : ∀ m ∈ ms, m.index < g.size) :
    ms.map g'.sizeOf = ms.map g.sizeOf :=
  List.map_congr_left fun m hm => he.sizeOf (hms m hm)

/-- The value of an element that reads all of its inputs. -/
theorem Evaluates.of_element [Scalar.Exact α] {rec : NodeRecord α} (kind : BuiltinKind α)
    (hr : g.record? n = some rec) (hk : rec.kind = .element kind.element)
    (hconfigure : kind ≠ .configure) (hfilter : kind ≠ .filter)
    (hbundle : kind = .bundle → rec.size = (rec.inputs.map g.sizeOf).sum)
    (hasks : ∀ config inputs q, kind.Asks config inputs q → inputs.length = rec.inputs.length →
      q.object.reads = inputs ∧ P q.object)
    (hf : ∀ t xs, kind.row rec.size t Scalar.zero [] xs = f xs) :
    g.Evaluates P n rec.inputs f := by
  intro defaults g' r k he hu hb
  have hin : ∀ m ∈ rec.inputs, m.index < g.size :=
    fun m hm => Nat.lt_trans (inputs_lt hr m hm) (lt_size hr)
  have hsame := he.sizes hin
  obtain ⟨config, inputs, q, hall, hsizes, hq, hobject, hrow⟩ :=
    hu.row hb (he.record? hr) hk hconfigure hfilter (hsame ▸ hbundle)
  obtain ⟨hreads, hP⟩ := hasks config inputs q hq hall.length_eq.symm
  rw [← sizeOf_record hr] at hobject
  refine ⟨q.object, inputs, hobject, hP, hall, fun hdirect v hv => ?_⟩
  obtain ⟨hlengths, hvalue⟩ := hrow v hv
  obtain ⟨t, hvalue⟩ := hvalue hdirect
  refine ⟨?_, hvalue.trans (hf t _)⟩
  rw [← hsame, ← hsizes]
  exact List.map_congr_left fun w hw => hlengths w (hreads ▸ hw)

theorem Evaluates.mono (h : g.Evaluates P n ms f) (he : g.Extends g') (hn : n.index < g.size)
    (hms : ∀ m ∈ ms, m.index < g.size) : g'.Evaluates P n ms f := by
  intro defaults g'' r k he' hu hb
  obtain ⟨o, hs, hobject, hP, hall, hv⟩ := h defaults g'' r k (he.trans he') hu hb
  rw [← he.sizeOf hn] at hobject
  refine ⟨o, hs, hobject, hP, hall, fun hdirect v hobserved => ?_⟩
  rw [he.sizes hms]
  exact hv hdirect v hobserved

theorem Evaluates.imp {Q : NetworkObject α → Prop} (h : g.Evaluates P n ms f)
    (hPQ : ∀ o, P o → Q o) : g.Evaluates Q n ms f := by
  intro defaults g' r k he hu hb
  obtain ⟨o, hs, hobject, hP, hrest⟩ := h defaults g' r k he hu hb
  exact ⟨o, hs, hobject, hPQ o hP, hrest⟩

/-- Only values of the right sizes count. -/
theorem Evaluates.congr (h : g.Evaluates P n ms f)
    (hf : ∀ xs : List (List α), xs.map List.length = ms.map g.sizeOf → f xs = f' xs) :
    g.Evaluates P n ms f' := by
  intro defaults g' r k he hu hb
  obtain ⟨o, hs, hobject, hP, hall, hv⟩ := h defaults g' r k he hu hb
  refine ⟨o, hs, hobject, hP, hall, fun hdirect v hobserved => ?_⟩
  obtain ⟨hlengths, hvalue⟩ := hv hdirect v hobserved
  refine ⟨hlengths, hvalue.trans (hf _ ?_)⟩
  rw [List.map_map]
  exact hlengths

/-- A function of the values of nodes that have their values from the same others. -/
theorem Evaluates.comp {fs : List (List (List α) → List α)} (h : g.Evaluates P n ns f)
    (hns : ns ≠ []) (hall : List.Forall₂ (fun m F => g.Computes m ms F) ns fs) :
    g.Evaluates P n ms fun xs => f (fs.map fun F => F xs) := by
  intro defaults g' r k he hu hb
  obtain ⟨o, ks, hobject, hP, hks, hvalue⟩ := h defaults g' r k he hu hb
  obtain ⟨hs, hhs, hlengths⟩ : ∃ hs, List.Forall₂ (fun m w => r.built m = some w) ms hs ∧
      ∀ v, r.target.Observed v → hs.map (fun w => (v.of w.id).length) = ms.map g.sizeOf := by
    obtain ⟨m, ns, rfl⟩ := List.exists_cons_of_ne_nil hns
    obtain ⟨w, _, hw, -, rfl⟩ := List.forall₂_cons_left_iff.1 hks
    obtain ⟨F, _, hF, -, rfl⟩ := List.forall₂_cons_left_iff.1 hall
    obtain ⟨_, hs, -, hdirect, hhs, hv⟩ := hF defaults g' r w he hu hw
    exact ⟨hs, hhs, fun v hobserved => (hv hdirect v hobserved).1⟩
  refine ⟨o, hs, hobject, hP, hhs, fun hdirect v hobserved => ⟨hlengths v hobserved, ?_⟩⟩
  rw [(hvalue hdirect v hobserved).2]
  refine congrArg f (forall₂_map_eq ?_)
  refine (forall₂_comp hks.flip hall).imp fun w F hwF => ?_
  obtain ⟨m, hw, hF⟩ := hwF
  obtain ⟨_, hs', -, hdirect', hhs', hv⟩ := hF defaults g' r w he hu hw
  have hsame : hs'.map some = hs.map some :=
    (forall₂_map_eq hhs').symm.trans (forall₂_map_eq hhs)
  rw [(hv hdirect' v hobserved).2, List.map_injective_iff.2 (Option.some_injective _) hsame]

/-- A value that is always the same need not be read. -/
theorem Evaluates.absorb {m : Node} {x : List α} (h : g.Evaluates P n (ns ++ [m]) f)
    (hm : g.Computes m [] fun _ => x) : g.Evaluates P n ns fun xs => f (xs ++ [x]) := by
  intro defaults g' r k he hu hb
  obtain ⟨o, ks, hobject, hP, hks, hvalue⟩ := h defaults g' r k he hu hb
  have hhs := (List.forall₂_take_append ks ns [m] hks.flip).flip
  have hws := (List.forall₂_drop_append ks ns [m] hks.flip).flip
  obtain ⟨w, _, hw, hnil, hdrop⟩ := List.forall₂_cons_left_iff.1 hws
  obtain rfl := List.forall₂_nil_left_iff.1 hnil
  refine ⟨o, ks.take ns.length, hobject, hP, hhs, fun hdirect v hobserved => ?_⟩
  obtain ⟨hlengths, hvalue⟩ := hvalue hdirect v hobserved
  obtain ⟨_, _, -, hdirect', -, hv⟩ := hm defaults g' r w he hu hw
  rw [← List.take_append_drop ns.length ks, hdrop, List.map_append] at hlengths hvalue
  rw [List.map_append] at hlengths
  refine ⟨(List.append_inj' hlengths rfl).1, ?_⟩
  rw [hvalue, List.map_singleton, (hv hdirect' v hobserved).2]

/-- A value that depends on one of the others only. -/
theorem Evaluates.select {p : Nat} {m : Node} (h : g.Evaluates P n ms f) (hp : ms[p]? = some m)
    (hf : ∀ xs : List (List α), xs.map List.length = ms.map g.sizeOf →
      f xs = f' [xs.getD p []]) : g.Evaluates P n [m] f' := by
  intro defaults g' r k he hu hb
  obtain ⟨o, hs, hobject, hP, hall, hvalue⟩ := h defaults g' r k he hu hb
  obtain ⟨w, hw, hbuilt⟩ := forall₂_partner hall hp
  refine ⟨o, [w], hobject, hP, .cons hbuilt .nil, fun hdirect v hobserved => ?_⟩
  obtain ⟨hlengths, hvalue⟩ := hvalue hdirect v hobserved
  have hread : (hs.map fun w => v.of w.id).getD p [] = v.of w.id := by
    rw [List.getD_eq_getElem?_getD, List.getElem?_map, hw, Option.map_some, Option.getD_some]
  have hlength : some (v.of w.id).length = some (g.sizeOf m) := by
    have := congrArg (·[p]?) hlengths
    simpa only [List.getElem?_map, hw, hp, Option.map_some] using this
  refine ⟨congrArg (fun k => [k]) (Option.some.inj hlength), ?_⟩
  rw [hvalue, hf _ (by rw [List.map_map]; exact hlengths), hread, List.map_singleton]

section

variable [Scalar.Exact α] {inputs : List Node} {size : Nat} {overlay explicit : Params α}

theorem computes_constant {xs : List α}
    (hr : g.record? n = some ⟨.element (.stimulus (.constant xs)), [], size, overlay, explicit⟩) :
    g.Computes n [] fun _ => xs := by
  refine Evaluates.of_element (.stimulus (.constant xs)) hr rfl nofun nofun nofun ?_
    fun _ _ => rfl
  rintro _ _ _ ⟨⟩ hl
  exact ⟨(List.length_eq_zero_iff.1 hl).symm, trivial⟩

theorem evaluates_transform {matrices : List (Matrix α)}
    (hr : g.record? n = some ⟨.element (.transform matrices), inputs, size, overlay, explicit⟩) :
    g.Evaluates (∃ ws, · = .linear ws matrices) n inputs
      fun xs => Matrix.weightedSum size xs matrices := by
  refine Evaluates.of_element (.transform matrices) hr rfl nofun nofun nofun ?_ fun _ _ => rfl
  rintro _ _ _ ⟨⟩ -
  exact ⟨rfl, _, rfl⟩

theorem evaluates_decode {m : Node} {function : VectorFunction α}
    (hr : g.record? n = some ⟨.element (.decode function size), [m], size, overlay, explicit⟩) :
    g.Evaluates (∃ w params, · = .nonlinear w function params) n [m]
      fun xs => function (xs.headD []) := by
  refine Evaluates.of_element (.decode function size) hr rfl nofun nofun nofun ?_ fun _ _ => rfl
  rintro _ _ _ ⟨⟩ hl
  obtain rfl := List.length_eq_zero_iff.1 (Nat.succ.inj hl)
  exact ⟨rfl, _, _, rfl⟩

theorem computes_slice {m : Node} {indices : List Nat}
    (hr : g.record? n = some ⟨.element (.slice indices), [m], size, overlay, explicit⟩) :
    g.Computes n [m] fun xs => indices.map fun i => (xs.headD []).getD i Scalar.zero := by
  refine Evaluates.of_element (.slice indices) hr rfl nofun nofun nofun ?_ fun _ _ => rfl
  rintro _ _ _ ⟨⟩ hl
  obtain rfl := List.length_eq_zero_iff.1 (Nat.succ.inj hl)
  exact ⟨rfl, trivial⟩

theorem computes_bundle
    (hr : g.record? n = some ⟨.element .bundle, inputs, size, overlay, explicit⟩)
    (hsize : size = (inputs.map g.sizeOf).sum) : g.Computes n inputs List.flatten := by
  refine Evaluates.of_element .bundle hr rfl nofun nofun (fun _ => hsize) ?_ fun _ _ => rfl
  rintro _ _ _ ⟨⟩ -
  exact ⟨rfl, trivial⟩

end

end Graph

end SignalGraph
