import SignalGraph.Proofs.Network.Calls

namespace SignalGraph

variable {α : Type}

/-- What becomes of a record: it stays, or its open loop is closed. -/
inductive ObjectRecord.Becomes : ObjectRecord α → ObjectRecord α → Prop
  | same (r : ObjectRecord α) : r.Becomes r
  | closed (input f : Handle) (n : Nat) :
    Becomes ⟨.feedback input none, n⟩ ⟨.feedback input (some f), n⟩

namespace ObjectRecord.Becomes

variable {r r' r'' : ObjectRecord α}

theorem size (h : r.Becomes r') : r'.size = r.size := by
  cases h <;> rfl

theorem reads (h : r.Becomes r') : r'.object.reads = r.object.reads := by
  cases h <;> rfl

theorem trans (h : r.Becomes r') (h' : r'.Becomes r'') : r.Becomes r'' := by
  cases h with
  | same => exact h'
  | closed input f n =>
    cases h'
    exact .closed input f n

end ObjectRecord.Becomes

namespace Network

/-- A network that has the objects of another and may have more of them. -/
def Grows (net net' : Network α) : Prop :=
  ∀ (i : Nat) (r : ObjectRecord α), net.objects[i]? = some r →
    ∃ r' : ObjectRecord α, net'.objects[i]? = some r' ∧ r.Becomes r'

theorem Grows.refl (net : Network α) : net.Grows net := fun _ r hr => ⟨r, hr, .same r⟩

theorem Grows.trans {a b c : Network α} (hab : a.Grows b) (hbc : b.Grows c) : a.Grows c := by
  intro i r hr
  obtain ⟨r', hr', hb⟩ := hab i r hr
  obtain ⟨r'', hr'', hb'⟩ := hbc i r' hr'
  exact ⟨r'', hr'', hb.trans hb'⟩

theorem Grows.holds {net net' : Network α} (hg : net.Grows net') {h : Handle}
    (hh : net.holds h = true) : net'.holds h = true := by
  obtain ⟨r, hr, hs⟩ := holds_iff.1 hh
  obtain ⟨r', hr', hb⟩ := hg _ r hr
  exact holds_iff.2 ⟨r', hr', hb.size.trans hs⟩

theorem push_grows (net : Network α) (o : NetworkObject α) (n : Nat) :
    net.Grows (net.push o n).2 := by
  intro i r hr
  have hi := (Array.getElem?_eq_some_iff.1 hr).1
  refine ⟨r, ?_, .same r⟩
  simp only [push]
  rw [Array.getElem?_push, if_neg (Nat.ne_of_lt hi), hr]

theorem connect_grows {net net' : Network α} {h f : Handle} (hc : net.connect h f = .ok net') :
    net.Grows net' := by
  obtain ⟨-, -, input, ho, rfl⟩ := connect_eq_ok.1 hc
  intro i r hr
  by_cases hi : h.id = i
  · subst hi
    cases ho.symm.trans hr
    have hlt := (Array.getElem?_eq_some_iff.1 ho).1
    refine ⟨_, ?_, .closed input f h.size⟩
    simp [hlt]
  · refine ⟨r, ?_, .same r⟩
    simp [Array.getElem?_setIfInBounds_ne hi, hr]

variable [Scalar α]

/-- Networks that calls lead to, failing calls leaving a network as it is. -/
inductive Reachable : Network α → Prop
  | empty (label : Option String) : Reachable (empty label)
  | create {net net' : Network α} {r : Request α} {h : Handle} :
    Reachable net → net.create r = .ok (h, net') → Reachable net'
  | connect {net net' : Network α} {h f : Handle} :
    Reachable net → net.connect h f = .ok net' → Reachable net'
  | probe {net net' : Network α} {h : Handle} {k : Nat} :
    Reachable net → net.probe h = .ok (k, net') → Reachable net'

/-- What holds of the object at place `i` of a network. -/
structure Sound (net : Network α) (i : Nat) (r : ObjectRecord α) : Prop where
  positive : r.size ≠ 0
  fits : r.object.Fits r.size
  reads : ∀ h ∈ r.object.reads, h.id < i ∧ net.holds h = true
  integrand : ∀ f ∈ r.object.integrand?, net.holds f = true

structure WellFormed (net : Network α) : Prop where
  sound : ∀ (i : Nat) (r : ObjectRecord α), net.objects[i]? = some r → net.Sound i r
  probes : ∀ h ∈ net.probes, net.holds h = true

theorem Sound.mono {net net' : Network α} {i : Nat} {r : ObjectRecord α} (hs : net.Sound i r)
    (hg : net.Grows net') : net'.Sound i r where
  positive := hs.positive
  fits := hs.fits
  reads h hh := ⟨(hs.reads h hh).1, hg.holds (hs.reads h hh).2⟩
  integrand f hf := hg.holds (hs.integrand f hf)

theorem WellFormed.empty (label : Option String) : (empty label : Network α).WellFormed where
  sound i r hr := by simp [Network.empty] at hr
  probes h hh := by simp [Network.empty] at hh

theorem WellFormed.create {net net' : Network α} {r : Request α} {h : Handle} (hw : net.WellFormed)
    (hc : net.create r = .ok (h, net')) : net'.WellFormed := by
  obtain ⟨⟨-, rfl⟩, hreads, hfits⟩ := create_eq_ok.1 hc
  have hg := push_grows net r.object r.size
  refine ⟨?_, fun p hp => hg.holds (hw.probes p hp)⟩
  intro i o ho
  simp only [push, Array.getElem?_push] at ho
  split at ho
  · cases ho
    have hlt : ∀ k ∈ r.object.reads, k.id < i ∧ (net.push r.object r.size).2.holds k = true := by
      rename_i hi
      intro k hk
      exact ⟨hi ▸ holds_lt (hreads k hk), hg.holds (hreads k hk)⟩
    refine ⟨?_, hfits, hlt, ?_⟩
    · cases r with
      | feedback input | filter input tau =>
        obtain ⟨o, ho, hs⟩ := holds_iff.1 (hreads input (List.mem_singleton_self input))
        have hpos := (hw.sound _ _ ho).positive
        rwa [hs] at hpos
      | _ => grind [NetworkObject.Fits, Request.object]
    · cases r <;> simp [Request.object, NetworkObject.integrand?]
  · exact (hw.sound i o ho).mono hg

theorem WellFormed.connect {net net' : Network α} {h f : Handle} (hw : net.WellFormed)
    (hc : net.connect h f = .ok net') : net'.WellFormed := by
  have hg := connect_grows hc
  obtain ⟨hf, hs, input, ho, rfl⟩ := connect_eq_ok.1 hc
  refine ⟨?_, fun p hp => hg.holds (hw.probes p hp)⟩
  intro i r hr
  by_cases hi : h.id = i
  · subst hi
    have hlt := (Array.getElem?_eq_some_iff.1 ho).1
    simp only [Array.getElem?_setIfInBounds_self, hlt, if_true, Option.some.injEq] at hr
    subst hr
    have hold := hw.sound _ _ ho
    refine ⟨hold.positive, ⟨hold.fits.1, ?_⟩, (hold.mono hg).reads, ?_⟩
    · rintro g ⟨⟩
      exact hs
    · rintro g ⟨⟩
      exact hg.holds hf
  · simp only [Array.getElem?_setIfInBounds_ne hi] at hr
    exact (hw.sound i r hr).mono hg

theorem WellFormed.probe {net net' : Network α} {h : Handle} {k : Nat} (hw : net.WellFormed)
    (hc : net.probe h = .ok (k, net')) : net'.WellFormed := by
  obtain ⟨hh, -, rfl⟩ := probe_eq_ok.1 hc
  have hg : net.Grows { net with probes := net.probes.push h } := fun i r hr => ⟨r, hr, .same r⟩
  refine ⟨fun i r hr => (hw.sound i r hr).mono hg, ?_⟩
  intro p hp
  rcases Array.mem_push.1 hp with hp | rfl
  · exact hg.holds (hw.probes p hp)
  · exact hg.holds hh

theorem Reachable.wellFormed {net : Network α} (hr : Reachable net) : net.WellFormed := by
  induction hr with
  | empty label => exact .empty label
  | create _ hc hw => exact hw.create hc
  | connect _ hc hw => exact hw.connect hc
  | probe _ hc hw => exact hw.probe hc

end Network

end SignalGraph
