import SignalGraph.Proofs.Effects
import SignalGraph.Proofs.Network.WellFormed

namespace SignalGraph

open Stateful

variable {α : Type} [Scalar α]

/-- A network that takes no slices. -/
def Target.plainNetwork : Target α (Network α) := Target.network.plain Network.size none

/-- An object and what stands for it on a network without slices. -/
inductive ObjectRecord.Mirrored : ObjectRecord α → ObjectRecord α → Prop
  | same (r : ObjectRecord α) : r.Mirrored r
  | slice (input : Handle) (indices : List Nat) :
    Mirrored ⟨.slice input indices, indices.length⟩
      ⟨.linear [input] [.selection indices input.size], indices.length⟩

theorem ObjectRecord.Mirrored.size {r r' : ObjectRecord α} (h : r.Mirrored r') :
    r.size = r'.size := by
  cases h <;> rfl

/-- What a kind asks for in the place of a slice. -/
def Request.unsliced : Request α → Request α
  | .slice input indices => .linear [input] [.selection indices input.size]
  | q => q

namespace Network

/-- The same objects, except that weighted sums stand for the slices. -/
structure Mirrors (net net' : Network α) : Prop where
  label : net.label = net'.label
  probes : net.probes = net'.probes
  objects : List.Forall₂ ObjectRecord.Mirrored net.objects.toList net'.objects.toList

theorem create_run (net : Network α) (q : Request α) :
    (Target.network.create q).run net =
      match net.grant q with
      | .ok (o, n) => (.ok (net.push o n).1, (net.push o n).2)
      | .error e => (.error e, net) := by
  change Effect.ofCall (·.create q) net = _
  simp only [Effect.ofCall, Network.create]
  cases net.grant q <;> rfl

theorem connect_run (net : Network α) (h f : Handle) :
    (Target.network.connect h f).run net =
      match net.connect h f with
      | .ok t => (.ok (), t)
      | .error e => (.error e, net) := by
  change Effect.ofCall (fun net : Network α => ((), ·) <$> net.connect h f) net = _
  simp only [Effect.ofCall]
  cases net.connect h f <;> rfl

theorem probe_run (net : Network α) (h : Handle) :
    (Target.network.probe h).run net =
      match net.check h with
      | .ok () => (.ok net.probes.size, { net with probes := net.probes.push h })
      | .error e => (.error e, net) := by
  change Effect.ofCall (·.probe h) net = _
  simp only [Effect.ofCall, Network.probe]
  cases net.check h <;> rfl

/-- Requests for other objects than slices are passed on. -/
theorem plain_create {q : Request α} (hq : q.unsliced = q) :
    Target.plainNetwork.create q = Target.network.create q := by
  cases q with
  | slice input indices => cases hq
  | _ => rfl

namespace Mirrors

variable {net net' : Network α}

theorem refl (net : Network α) : net.Mirrors net :=
  ⟨rfl, rfl, List.forall₂_same.2 fun r _ => .same r⟩

theorem size (h : net.Mirrors net') : net.size = net'.size := by
  simpa [Network.size] using h.objects.length_eq

theorem sizes (h : net.Mirrors net') :
    net.objects.map ObjectRecord.size = net'.objects.map ObjectRecord.size := by
  have hs := forall₂_map_eq (h.objects.imp fun _ _ hr => hr.size)
  rwa [← Array.toList_map, ← Array.toList_map, Array.toList_inj] at hs

theorem object (h : net.Mirrors net') {i : Nat} {r : ObjectRecord α}
    (hr : net.objects[i]? = some r) : ∃ r', net'.objects[i]? = some r' ∧ r.Mirrored r' := by
  have hi := (Array.getElem?_eq_some_iff.1 hr).1
  have hi' : i < net'.objects.size := Nat.lt_of_lt_of_eq hi h.size
  have hr' : net'.objects[i]? = some net'.objects[i] := Array.getElem?_eq_getElem hi'
  rw [← Array.getElem?_toList] at hr
  exact ⟨_, hr', forall₂_getElem? h.objects hr (by rwa [Array.getElem?_toList])⟩

/-- An object of a loop is its own mirror. -/
theorem feedback (h : net.Mirrors net') {i n : Nat} {input : Handle} {c : Option Handle}
    (hr : net.objects[i]? = some ⟨.feedback input c, n⟩) :
    net'.objects[i]? = some ⟨.feedback input c, n⟩ := by
  obtain ⟨r', hr', hm⟩ := h.object hr
  cases hm
  exact hr'

theorem holds (h : net.Mirrors net') (k : Handle) : net.holds k = net'.holds k := by
  unfold Network.holds
  cases hr : net.objects[k.id]? with
  | none =>
    have hk : net'.size ≤ k.id := h.size ▸ Array.getElem?_eq_none_iff.1 hr
    have hnone : net'.objects[k.id]? = none := Array.getElem?_eq_none hk
    rw [hnone]
  | some r =>
    obtain ⟨r', hr', hm⟩ := h.object hr
    rw [hr']
    simp only [hm.size]

theorem check (h : net.Mirrors net') (k : Handle) : net.check k = net'.check k := by
  rw [Network.check, Network.check, h.holds]

theorem checkCoefficients (h : net.Mirrors net') (rows : Nat) (ps : List (Handle × Matrix α)) :
    net.checkCoefficients rows ps = net'.checkCoefficients rows ps := by
  induction ps with
  | nil => rfl
  | cons p ps ih => simp only [Network.checkCoefficients, h.check, ih]

theorem grant (h : net.Mirrors net') (q : Request α) : net.grant q = net'.grant q := by
  cases q <;> simp only [Network.grant, h.check, h.checkCoefficients]

theorem push (h : net.Mirrors net') {o o' : NetworkObject α} {n : Nat}
    (ho : ObjectRecord.Mirrored ⟨o, n⟩ ⟨o', n⟩) :
    (net.push o n).1 = (net'.push o' n).1 ∧ (net.push o n).2.Mirrors (net'.push o' n).2 := by
  refine ⟨?_, h.label, h.probes, ?_⟩
  · rw [Network.push, Network.push, h.size]
  · simp only [Network.push, Array.toList_push]
    exact List.rel_append h.objects (.cons ho .nil)

theorem create (h : net.Mirrors net') (q : Request α) :
    Alike Mirrors ((Target.network.create q).run net) ((Target.network.create q).run net') := by
  rw [create_run, create_run, h.grant]
  cases net'.grant q with
  | error e => exact ⟨rfl, h⟩
  | ok p =>
    obtain ⟨hanswer, hstates⟩ := h.push (.same ⟨p.1, p.2⟩)
    exact ⟨congrArg Except.ok hanswer, hstates⟩

/-- A slice that is in order is made on the one network and selected by a matrix on the other. -/
theorem create_slice (h : net.Mirrors net') {input : Handle} {indices : List Nat}
    (hheld : net.holds input = true) (hne : indices ≠ []) (hlt : ∀ i ∈ indices, i < input.size) :
    Alike Mirrors ((Target.network.create (.slice input indices)).run net)
      ((Target.network.create (Request.slice input indices).unsliced).run net') := by
  have hlength : indices.length ≠ 0 := fun hl => hne (List.length_eq_zero_iff.1 hl)
  have hslice : net.grant (.slice input indices) = .ok (.slice input indices, indices.length) :=
    grant_eq_ok.2 ⟨⟨rfl, rfl⟩, fun k hk => List.mem_singleton.1 hk ▸ hheld, rfl, hlength, hlt⟩
  have hlinear : net'.grant (.linear [input] [.selection indices input.size]) =
      .ok (.linear [input] [.selection indices input.size], indices.length) := by
    refine grant_eq_ok.2 ⟨⟨rfl, rfl⟩, fun k hk => ?_, List.cons_ne_nil _ _, rfl, hlength, ?_⟩
    · rw [List.mem_singleton.1 hk, ← h.holds, hheld]
    · intro p hp
      rw [List.mem_singleton.1 hp]
      exact ⟨rfl, rfl⟩
  rw [Request.unsliced, create_run, create_run, hslice, hlinear]
  obtain ⟨hanswer, hstates⟩ := h.push (.slice input indices)
  exact ⟨congrArg Except.ok hanswer, hstates⟩

/-- A loop is closed alike on both. On a slice the refusals would tell different kinds. -/
theorem connect (h : net.Mirrors net') {k f input : Handle} {c : Option Handle} {n : Nat}
    (ho : net.objects[k.id]? = some ⟨.feedback input c, n⟩) :
    Alike Mirrors ((Target.network.connect k f).run net)
      ((Target.network.connect k f).run net') := by
  rw [connect_run, connect_run, Network.connect, Network.connect, ho, h.feedback ho, h.check,
    h.check]
  cases net'.check k with
  | error e => exact ⟨rfl, h⟩
  | ok =>
    cases net'.check f with
    | error e => exact ⟨rfl, h⟩
    | ok =>
      by_cases hsize : f.size ≠ k.size
      · simp only [if_pos hsize]
        exact ⟨rfl, h⟩
      · simp only [if_neg hsize]
        cases c with
        | some c => exact ⟨rfl, h⟩
        | none =>
          refine ⟨rfl, h.label, h.probes, ?_⟩
          change List.Forall₂ _ (net.objects.setIfInBounds k.id _).toList
            (net'.objects.setIfInBounds k.id _).toList
          rw [Array.toList_setIfInBounds, Array.toList_setIfInBounds]
          exact forall₂_set h.objects k.id (.same _)

theorem probe (h : net.Mirrors net') (k : Handle) :
    Alike Mirrors ((Target.network.probe k).run net) ((Target.network.probe k).run net') := by
  rw [probe_run, probe_run, h.check, h.probes]
  cases net'.check k with
  | error e => exact ⟨rfl, h⟩
  | ok => exact ⟨rfl, h.label, rfl, h.objects⟩

/-- What holds of the objects of the one holds of those of the other. -/
theorem wellFormed (h : net.Mirrors net') (hw : net.WellFormed) : net'.WellFormed where
  sound i r' hr' := by
    have hi' : i < net'.size := (Array.getElem?_eq_some_iff.1 hr').1
    have hi : i < net.objects.size := Nat.lt_of_lt_of_eq hi' h.size.symm
    have hr : net.objects[i]? = some net.objects[i] := Array.getElem?_eq_getElem hi
    have hs := hw.sound i _ hr
    have hkeep : ∀ k, net.holds k = true → net'.holds k = true := fun k hk => h.holds k ▸ hk
    have hreads : ∀ k ∈ net.objects[i].object.reads, k.id < i ∧ net'.holds k = true := fun k hk =>
      ⟨(hs.reads k hk).1, hkeep k (hs.reads k hk).2⟩
    obtain ⟨r, hr'', hm⟩ := h.object hr
    cases hr'.symm.trans hr''
    generalize net.objects[i] = o at hs hm hreads
    cases hm with
    | same => exact ⟨hs.positive, hs.fits, hreads, fun f hf => hkeep f (hs.integrand f hf)⟩
    | slice input indices =>
      refine ⟨hs.positive, ⟨List.cons_ne_nil _ _, rfl, hs.positive, fun p hp => ?_⟩, hreads, nofun⟩
      rw [List.mem_singleton.1 hp]
      exact ⟨rfl, rfl⟩
  probes k hk := by
    rw [← h.probes] at hk
    rw [← h.holds]
    exact hw.probes k hk

end Mirrors

end Network

end SignalGraph
