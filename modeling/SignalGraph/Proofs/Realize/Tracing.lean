import SignalGraph.Proofs.Arrays
import SignalGraph.Proofs.Graph.Construction
import SignalGraph.Proofs.Realize.Places

namespace SignalGraph

variable {α σ : Type}

/-- A step of a realization that the target sees. -/
inductive Event where
  /-- The conversation of an element, with the handles of its inputs and its own. -/
  | build (n : Node) (inputs : List Handle) (h : Handle)
  /-- The feedback object of an integrator. -/
  | feedback (n : Node) (input h : Handle)
  /-- The end of an integrator's loop at the object of its integrand. -/
  | connect (n : Node) (h rate : Handle)

namespace Event

def node : Event → Node
  | build n .. | feedback n .. | connect n .. => n

def built? : Event → Option Node
  | build n .. => some n
  | _ => none

def opened? : Event → Option Node
  | feedback n .. => some n
  | _ => none

def closed? : Event → Option Node
  | connect n .. => some n
  | _ => none

end Event

namespace Realization

/-- A handle that is written down for a node. -/
def write (r : Realization α σ) (n : Node) (h : Handle) : Realization α σ :=
  { r with memo := (n, h) :: r.memo }

end Realization

/-- Nodes that roots lead to through inputs and integrands. -/
inductive Graph.Reached (g : Graph α) (roots : List Node) : Node → Prop
  | root {n : Node} : n ∈ roots → Reached g roots n
  | input {n m : Node} : Reached g roots n → m ∈ g.inputsOf n → Reached g roots m
  | integrand {n f : Node} : Reached g roots n → g.integrandOf n = some f → Reached g roots f

theorem Graph.Reached.through {g : Graph α} {roots roots' : List Node} {n : Node}
    (h : g.Reached roots n) (hr : ∀ m ∈ roots, g.Reached roots' m) : g.Reached roots' n := by
  induction h with
  | root hm => exact hr _ hm
  | input _ hm ih => exact .input ih hm
  | integrand _ hf ih => exact .integrand ih hf

namespace Realize

open Stateful

section

variable (t : Target α σ) (g : Graph α) (defaults : Defaults α)

/-- The realization of nodes one after the other, with the events on the way. -/
inductive Traced : List Node → Realization α σ → List Event → List Handle → Realization α σ → Prop
  | nil (r : Realization α σ) : Traced [] r [] [] r
  | known {n : Node} {h : Handle} {ns : List Node} {es : List Event} {hs : List Handle}
    {r r' : Realization α σ} :
    r.built n = some h → Traced ns r es hs r' → Traced (n :: ns) r es (h :: hs) r'
  | element {n : Node} {rec : NodeRecord α} {e : Element α} {config : ResolvedConfig α}
    {inputs : List Handle} {h : Handle} {ins : List Event} {r r₁ r₂ : Realization α σ}
    {ns : List Node} {es : List Event} {hs : List Handle} {r' : Realization α σ} :
    r.built n = none → g.record? n = some rec → rec.kind = .element e →
    g.checkOverlay n defaults = .ok () → g.resolve n e.configurable defaults = .ok config →
    Traced rec.inputs r ins inputs r₁ →
    (converse t (e.lower inputs config)).run r₁ = (.ok h, r₂) → h.size = rec.size →
    Traced ns (r₂.write n h) es hs r' →
      Traced (n :: ns) r (ins ++ .build n inputs h :: es) (h :: hs) r'
  | integrate {n s : Node} {rec : NodeRecord α} {u : Handle} {us : List Handle} {h : Handle}
    {ins : List Event} {r r₁ r₂ : Realization α σ} {ns : List Node} {es : List Event}
    {hs : List Handle} {r' : Realization α σ} :
    r.built n = none → g.record? n = some rec → rec.kind = .integrate s none →
    Traced rec.inputs r ins (u :: us) r₁ →
    (onTarget (t.create (.feedback u))).run r₁ = (.ok h, r₂) →
    Traced ns ((r₂.write s h).write n h) es hs r' →
      Traced (n :: ns) r (ins ++ .feedback n u h :: es) (h :: hs) r'
  | closed {n s f : Node} {rec : NodeRecord α} {u : Handle} {us : List Handle} {h rate : Handle}
    {ins fs : List Event} {r r₁ r₂ r₃ r₄ : Realization α σ} {ns : List Node} {es : List Event}
    {hs : List Handle} {r' : Realization α σ} :
    r.built n = none → g.record? n = some rec → rec.kind = .integrate s (some f) →
    Traced rec.inputs r ins (u :: us) r₁ →
    (onTarget (t.create (.feedback u))).run r₁ = (.ok h, r₂) →
    Traced [f] (r₂.write s h) fs [rate] r₃ →
    (onTarget (t.connect h rate)).run r₃ = (.ok (), r₄) →
    Traced ns (r₄.write n h) es hs r' →
      Traced (n :: ns) r (ins ++ .feedback n u h :: (fs ++ .connect n h rate :: es)) (h :: hs) r'

end

variable {t : Target α σ} {g : Graph α} {defaults : Defaults α}

theorem Traced.append {ns ms : List Node} {r r' r'' : Realization α σ} {es fs : List Event}
    {hs ks : List Handle} (h : Traced t g defaults ns r es hs r')
    (h' : Traced t g defaults ms r' fs ks r'') :
    Traced t g defaults (ns ++ ms) r (es ++ fs) (hs ++ ks) r'' := by
  induction h with
  | nil => exact h'
  | known hb _ ih => exact .known hb (ih h')
  | element hb hr hk ho hres hin hc hs _ _ ih =>
    rw [List.append_assoc]
    exact .element hb hr hk ho hres hin hc hs (ih h')
  | integrate hb hr hk hin hc _ _ ih =>
    rw [List.append_assoc]
    exact .integrate hb hr hk hin hc (ih h')
  | closed hb hr hk hin hc hf hconnect _ _ _ ih =>
    simp only [List.append_assoc, List.cons_append]
    exact .closed hb hr hk hin hc hf hconnect (ih h')

/-- Nodes that have a trace each have one together. -/
theorem traced_of_mapM {ns : List Node} {hs : List Handle} {r r' : Realization α σ}
    (hplace : ∀ n ∈ ns, ∀ (q q' : Realization α σ) (h : Handle),
      (place t g defaults n.index).run q = (.ok h, q') → ∃ es, Traced t g defaults [n] q es [h] q')
    (hrun : (ns.mapM fun n => place t g defaults n.index).run r = (.ok hs, r')) :
    ∃ es, Traced t g defaults ns r es hs r' := by
  induction ns generalizing r hs with
  | nil =>
    cases hrun
    exact ⟨[], .nil _⟩
  | cons n ns ih =>
    simp only [List.mapM_cons, bind_ok, pure_ok] at hrun
    obtain ⟨h, r₁, hn, ks, r₂, hns, rfl, rfl⟩ := hrun
    obtain ⟨es, hes⟩ := hplace n List.mem_cons_self _ r₁ h hn
    obtain ⟨fs, hfs⟩ := ih (fun m hm => hplace m (List.mem_cons_of_mem _ hm)) hns
    exact ⟨es ++ fs, hes.append hfs⟩

/-- The recursion goes along the places of the graph, as that of the realization does. -/
theorem traced_of_place {i : Nat} {r r' : Realization α σ} {h : Handle}
    (hrun : (place t g defaults i).run r = (.ok h, r')) :
    ∃ es, Traced t g defaults [⟨i⟩] r es [h] r' := by
  induction i using Nat.strongRecOn generalizing r r' h with
  | ind i ih =>
    have hinputs : ∀ {rec : NodeRecord α}, g.records[i]? = some rec →
        ∀ m ∈ rec.inputs, ∀ (q q' : Realization α σ) (k : Handle),
          (place t g defaults m.index).run q = (.ok k, q') →
            ∃ es, Traced t g defaults [m] q es [k] q' :=
      fun hr m hm _ _ _ hq => ih m.index (Graph.inputs_lt (n := ⟨i⟩) hr m hm) hq
    cases place_ok.1 hrun with
    | known hb => exact ⟨[], .known hb (.nil r)⟩
    | element hb hr hk ho hres hin hc hs =>
      obtain ⟨ins, hins⟩ := traced_of_mapM (hinputs hr) hin
      exact ⟨_, .element hb hr hk ho hres hins hc hs (.nil _)⟩
    | integrate hb hr hk hin hc =>
      obtain ⟨ins, hins⟩ := traced_of_mapM (hinputs hr) hin
      exact ⟨_, .integrate hb hr hk hins hc (.nil _)⟩
    | @closed rec s f u us h rate r₁ r₂ r₃ r₄ hb hr hk hin hc hf hconnect =>
      obtain ⟨ins, hins⟩ := traced_of_mapM (hinputs hr) hin
      obtain ⟨fs, hfs⟩ := ih f.index (Graph.integrand_lt (n := ⟨i⟩) hr hk) hf
      exact ⟨_, .closed hb hr hk hins hc hfs hconnect (.nil _)⟩

/-- Runs of a list of nodes and traces of it are the same. -/
theorem traced_iff {ns : List Node} {r r' : Realization α σ} {hs : List Handle} :
    (ns.mapM fun n => place t g defaults n.index).run r = (.ok hs, r') ↔
      ∃ es, Traced t g defaults ns r es hs r' := by
  constructor
  · exact traced_of_mapM fun n _ r r' h hn => traced_of_place hn
  · rintro ⟨es, h⟩
    have hcons : ∀ {n : Node} {k : Handle} {ns : List Node} {ks : List Handle}
        {q q₁ q' : Realization α σ}, Placed t g defaults n.index q k q₁ →
        (ns.mapM fun n => place t g defaults n.index).run q₁ = (.ok ks, q') →
        ((n :: ns).mapM fun n => place t g defaults n.index).run q = (.ok (k :: ks), q') := by
      intro n k ns ks q q₁ q' hp hns
      simp only [List.mapM_cons, bind_ok, pure_ok]
      exact ⟨k, q₁, place_ok.2 hp, ks, q', hns, rfl, rfl⟩
    induction h with
    | nil => rfl
    | known hb _ ih => exact hcons (.known hb) ih
    | element hb hr hk ho hres _ hc hs _ hin ih =>
      exact hcons (.element hb hr hk ho hres hin hc hs) ih
    | integrate hb hr hk _ hc _ hin ih => exact hcons (.integrate hb hr hk hin hc) ih
    | closed hb hr hk _ hc _ hconnect _ hin hf ih =>
      exact hcons (.closed hb hr hk hin hc (mapM_singleton.1 hf) hconnect) ih

/-- What is asked for belongs to nodes that the nodes realized lead to. -/
theorem Traced.reached {ns : List Node} {r r' : Realization α σ} {es : List Event}
    {hs : List Handle} (h : Traced t g defaults ns r es hs r') : ∀ e ∈ es, g.Reached ns e.node := by
  have hinputs : ∀ {n : Node} {ns : List Node} {rec : NodeRecord α}, g.record? n = some rec →
      ∀ m ∈ rec.inputs, g.Reached (n :: ns) m := by
    intro n ns rec hr m hm
    refine .input (.root List.mem_cons_self) ?_
    rwa [Graph.inputsOf, hr]
  have hrest : ∀ {n m : Node} {ns : List Node}, g.Reached ns m → g.Reached (n :: ns) m :=
    fun hm => hm.through fun k hk => .root (List.mem_cons_of_mem _ hk)
  induction h with
  | nil => exact fun e he => absurd he List.not_mem_nil
  | known _ _ ih => exact fun e he => hrest (ih e he)
  | element _ hr _ _ _ _ _ _ _ ihin ih =>
    intro e he
    simp only [List.mem_append, List.mem_cons] at he
    rcases he with he | rfl | he
    · exact (ihin e he).through (hinputs hr)
    · exact .root List.mem_cons_self
    · exact hrest (ih e he)
  | integrate _ hr _ _ _ _ ihin ih =>
    intro e he
    simp only [List.mem_append, List.mem_cons] at he
    rcases he with he | rfl | he
    · exact (ihin e he).through (hinputs hr)
    · exact .root List.mem_cons_self
    · exact hrest (ih e he)
  | @closed n s f rec _ _ _ _ _ _ _ _ _ _ _ _ _ _ _ _ hr hk _ _ _ _ _ ihin ihf ih =>
    have hintegrand : g.integrandOf n = some f := Graph.integrandOf_eq_some.2 ⟨rec, s, hr, hk⟩
    intro e he
    simp only [List.mem_append, List.mem_cons] at he
    rcases he with he | rfl | he | rfl | he
    · exact (ihin e he).through (hinputs hr)
    · exact .root List.mem_cons_self
    · refine (ihf e he).through fun m hm => ?_
      rw [List.mem_singleton.1 hm]
      exact .integrand (.root List.mem_cons_self) hintegrand
    · exact .root List.mem_cons_self
    · exact hrest (ih e he)

/-- Events performed one after the other, with nothing written down. -/
inductive Replayed (t : Target α σ) (g : Graph α) (defaults : Defaults α) :
    List Event → Realization α σ → Realization α σ → Prop
  | nil (r : Realization α σ) : Replayed t g defaults [] r r
  | build {n : Node} {rec : NodeRecord α} {e : Element α} {config : ResolvedConfig α}
    {inputs : List Handle} {h : Handle} {es : List Event} {r r₁ r' : Realization α σ} :
    g.record? n = some rec → rec.kind = .element e → g.resolve n e.configurable defaults = .ok config →
    (converse t (e.lower inputs config)).run r = (.ok h, r₁) → Replayed t g defaults es r₁ r' →
      Replayed t g defaults (.build n inputs h :: es) r r'
  | feedback {n : Node} {u h : Handle} {es : List Event} {r r₁ r' : Realization α σ} :
    (onTarget (t.create (.feedback u))).run r = (.ok h, r₁) → Replayed t g defaults es r₁ r' →
      Replayed t g defaults (.feedback n u h :: es) r r'
  | connect {n : Node} {h rate : Handle} {es : List Event} {r r₁ r' : Realization α σ} :
    (onTarget (t.connect h rate)).run r = (.ok (), r₁) → Replayed t g defaults es r₁ r' →
      Replayed t g defaults (.connect n h rate :: es) r r'

theorem Replayed.append {es fs : List Event} {r r' r'' : Realization α σ}
    (h : Replayed t g defaults es r r') (h' : Replayed t g defaults fs r' r'') :
    Replayed t g defaults (es ++ fs) r r'' := by
  induction h with
  | nil => exact h'
  | build hr hk hres hc _ ih => exact .build hr hk hres hc (ih h')
  | feedback hc _ ih => exact .feedback hc (ih h')
  | connect hc _ ih => exact .connect hc (ih h')

/-- A call on the target does not read the memo. -/
theorem onTarget_memo {β : Type} {call : Effect σ β} {b : β} {r r' : Realization α σ}
    (h : (onTarget call).run r = (.ok b, r')) (memo : List (Node × Handle)) :
    (onTarget call).run { r with memo } = (.ok b, { r' with memo }) := by
  obtain ⟨target, hcall, rfl⟩ := onTarget_ok.1 h
  exact onTarget_ok.2 ⟨target, hcall, rfl⟩

/-- A conversation does not read the memo. -/
theorem converse_memo {l : Lowering α} {h : Handle} {r r' : Realization α σ}
    (hc : (converse t l).run r = (.ok h, r')) (memo : List (Node × Handle)) :
    (converse t l).run { r with memo } = (.ok h, { r' with memo }) := by
  induction l generalizing r with
  | done k =>
    obtain ⟨rfl, rfl⟩ := pure_ok.1 hc
    rfl
  | fail e => exact absurd hc throw_ok
  | create q next ih =>
    simp only [converse, bind_ok] at hc ⊢
    obtain ⟨k, r₁, hk, hc⟩ := hc
    exact ⟨k, _, onTarget_memo hk memo, ih k hc⟩
  | connect a b next ih =>
    simp only [converse, bind_ok] at hc ⊢
    obtain ⟨u, r₁, hk, hc⟩ := hc
    exact ⟨u, _, onTarget_memo hk memo, ih hc⟩
  | partialConnections next ih =>
    simp only [converse, bind_ok, get_ok] at hc ⊢
    obtain ⟨_, _, ⟨rfl, rfl⟩, hc⟩ := hc
    exact ⟨_, _, ⟨rfl, rfl⟩, ih _ hc⟩
  | report q next ih =>
    simp only [converse, bind_ok, modify_ok] at hc ⊢
    obtain ⟨u, _, rfl, hc⟩ := hc
    exact ⟨u, _, rfl, ih hc⟩

/-- The target sees the events and nothing else. -/
theorem Traced.replayed {ns : List Node} {r r' : Realization α σ} {es : List Event}
    {hs : List Handle} (h : Traced t g defaults ns r es hs r') (memo : List (Node × Handle)) :
    Replayed t g defaults es { r with memo } { r' with memo } := by
  induction h with
  | nil r => exact .nil _
  | known _ _ ih => exact ih
  | element _ hr hk _ hres _ hc _ _ ihin ih =>
    exact ihin.append (.build hr hk hres (converse_memo hc memo) ih)
  | integrate _ _ _ _ hc _ ihin ih => exact ihin.append (.feedback (onTarget_memo hc memo) ih)
  | closed _ _ _ _ hc _ hconnect _ ihin ihf ih =>
    exact ihin.append
      (.feedback (onTarget_memo hc memo) (ihf.append (.connect (onTarget_memo hconnect memo) ih)))

end Realize

end SignalGraph
