import SignalGraph.Proofs.Network.WellFormed
import SignalGraph.Proofs.Simulation.Output

namespace SignalGraph.Circuit

variable {α : Type} [Scalar α]

theorem partsFrom_eq_ok {dt : α} {place : Nat} {rs : List (ObjectRecord α)} {ps : List (Part α)} :
    partsFrom dt place rs = .ok ps ↔ ps.length = rs.length ∧
      ∀ i (r : ObjectRecord α), rs[i]? = some r →
        ∃ p, ps[i]? = some p ∧ part dt (place + i) r = .ok p := by
  induction rs generalizing place ps with
  | nil => cases ps <;> simp [partsFrom]
  | cons r rs ih =>
    simp only [partsFrom, bind_eq_ok, pure_eq_ok]
    constructor
    · rintro ⟨p, hp, ps, hps, rfl⟩
      obtain ⟨hl, hi⟩ := ih.1 hps
      refine ⟨by rw [List.length_cons, hl, List.length_cons], ?_⟩
      intro i r' hr'
      cases i with
      | zero =>
        cases hr'
        exact ⟨p, rfl, hp⟩
      | succ i =>
        have := hi i r' hr'
        rwa [Nat.add_assoc, Nat.add_comm 1] at this
    · rintro ⟨hl, hi⟩
      obtain ⟨p, hp, hpr⟩ := hi 0 r rfl
      cases ps with
      | nil => cases hp
      | cons q qs =>
        cases hp
        refine ⟨_, hpr, qs, ih.2 ⟨Nat.succ.inj hl, ?_⟩, rfl⟩
        intro i r' hr'
        have := hi (i + 1) r' hr'
        rwa [Nat.add_comm i, ← Nat.add_assoc, Nat.add_comm 1] at this

/-- The parts of two stretches of objects, the places going on from the first to the second. -/
theorem partsFrom_append (dt : α) (place : Nat) (rs rs' : List (ObjectRecord α)) :
    partsFrom dt place (rs ++ rs') = do
      let before ← partsFrom dt place rs
      let after ← partsFrom dt (place + rs.length) rs'
      return before ++ after := by
  induction rs generalizing place with
  | nil => exact (bind_pure (partsFrom dt place rs')).symm
  | cons r rs ih =>
    have hplace : place + 1 + rs.length = place + (r :: rs).length := by
      rw [List.length_cons]
      omega
    simp only [List.cons_append, partsFrom, ih, hplace, bind_assoc, pure_bind]

/-- A circuit made of the objects of a network, one part for each. -/
structure Made (net : Network α) (dt : α) (c : Circuit α) : Prop where
  dt_eq : c.dt = dt
  positive : Scalar.less Scalar.zero dt = true
  finite : Scalar.isFinite dt = true
  size : c.parts.size = net.size
  part : ∀ (i : Nat) (r : ObjectRecord α), net.objects[i]? = some r →
    ∃ p, c.parts[i]? = some p ∧ part dt i r = .ok p
  sizes : c.sizes = net.objects.map (·.size)
  probes : c.probes = net.probes.toList.map (·.id)

theorem ofNetwork_eq_ok {net : Network α} {dt : α} {c : Circuit α} :
    ofNetwork net dt = .ok c ↔ c.Made net dt := by
  simp only [ofNetwork, bind_eq_ok, guard_eq_ok, pure_eq_ok, partsFrom_eq_ok, Array.getElem?_toList,
    Array.length_toList, Nat.zero_add]
  constructor
  · rintro ⟨hdt, ps, ⟨hl, hi⟩, rfl⟩
    simp only [Bool.or_eq_true, Bool.not_eq_true', not_or, Bool.not_eq_false] at hdt
    exact ⟨rfl, hdt.1, hdt.2, hl, by simpa using hi, rfl, rfl⟩
  · intro h
    refine ⟨by simp [h.positive, h.finite], c.parts.toList, ⟨h.size, by simpa using h.part⟩, ?_⟩
    rw [← h.dt_eq, ← h.sizes, ← h.probes]

/-- A part reads the parts of what its object reads. -/
theorem part_stepInputs {dt : α} {i : Nat} {r : ObjectRecord α} {p : Part α}
    (h : part dt i r = .ok p) : p.stepInputs = r.object.stepInputs.map (·.id) := by
  obtain ⟨o, n⟩ := r
  cases o with
  | nonlinear input function params =>
    simp only [part] at h
    split at h
    · cases h
      rfl
    · simp only [Except.map] at h
      split at h <;> cases h
      rfl
  | _ =>
    cases h
    rfl

/-- Feedback parts are made from feedback objects. -/
theorem part_eq_feedback {dt : α} {i a : Nat} {r : ObjectRecord α} {g : Option Nat}
    (h : part dt i r = .ok (.feedback a g)) :
    ∃ input f, r.object = .feedback input f ∧ a = input.id ∧ g = f.map (·.id) := by
  obtain ⟨o, n⟩ := r
  cases o with
  | feedback input f =>
    cases h
    exact ⟨input, f, rfl, rfl, rfl⟩
  | nonlinear input function params =>
    simp only [part, Except.map] at h
    split at h
    · cases h
    · split at h <;> cases h
  | _ => cases h

namespace Made

variable {net : Network α} {dt : α} {c : Circuit α}

/-- The object that a part is made from. -/
theorem record (hm : c.Made net dt) {i : Nat} {p : Part α} (hp : c.parts[i]? = some p) :
    ∃ r : ObjectRecord α, net.objects[i]? = some r ∧ Circuit.part dt i r = .ok p := by
  have hi : i < net.objects.size := by
    have := (Array.getElem?_eq_some_iff.1 hp).1
    rwa [hm.size] at this
  have hr : net.objects[i]? = some net.objects[i] := Array.getElem?_eq_getElem hi
  obtain ⟨q, hq, hpart⟩ := hm.part i _ hr
  cases hp.symm.trans hq
  exact ⟨_, hr, hpart⟩

theorem feedback (hm : c.Made net dt) {i n : Nat} {input : Handle} {f : Option Handle}
    (hr : net.objects[i]? = some ⟨.feedback input f, n⟩) :
    c.parts[i]? = some (.feedback input.id (f.map (·.id))) := by
  obtain ⟨p, hp, hpart⟩ := hm.part i _ hr
  cases hpart
  exact hp

theorem sizes_getD (hm : c.Made net dt) {i : Nat} {r : ObjectRecord α}
    (hr : net.objects[i]? = some r) : c.sizes.getD i 0 = r.size := by
  simp [hm.sizes, Array.getD_eq_getD_getElem?, hr]

theorem sizes_holds (hm : c.Made net dt) {h : Handle} (hh : net.holds h = true) :
    c.sizes.getD h.id 0 = h.size := by
  obtain ⟨r, hr, hs⟩ := Network.holds_iff.1 hh
  rw [hm.sizes_getD hr, hs]

theorem forward (hm : c.Made net dt) (hw : net.WellFormed) : c.Forward := by
  intro i p hp j hj
  obtain ⟨r, hr, hpart⟩ := hm.record hp
  rw [part_stepInputs hpart] at hj
  obtain ⟨h, hh, rfl⟩ := List.mem_map.1 hj
  exact ((hw.sound i r hr).reads h (r.object.stepInputs_subset_reads h hh)).1

theorem initial_size (hm : c.Made net dt) : c.initial.size = c.parts.size := by
  rw [initial, Array.size_map, hm.sizes, Array.size_map, hm.size, Network.size]

end Made

end SignalGraph.Circuit
