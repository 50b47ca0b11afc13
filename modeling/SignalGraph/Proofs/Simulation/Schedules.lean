import Mathlib.Data.Set.Basic
import SignalGraph.Proofs.Computation
import SignalGraph.Proofs.Simulation.Output

namespace SignalGraph

variable {α : Type} [Scalar α]

/-- The schedule evaluates the parts that are not done, each once and after the parts it reads. -/
def Circuit.Follows (c : Circuit α) : Set Nat → List (List Nat) → Prop
  | done, [] => ∀ i < c.parts.size, i ∈ done
  | done, batch :: rest =>
    (batch.Nodup ∧ ∀ i ∈ batch, i < c.parts.size ∧ i ∉ done ∧
      ∀ p : Part α, c.parts[i]? = some p → ∀ j ∈ p.stepInputs, j ∈ done) ∧
    c.Follows (done ∪ {i | i ∈ batch}) rest

omit [Scalar α] in
theorem Circuit.Follows.not_mem {c : Circuit α} {done : Set Nat} {stretch rest : List (List Nat)}
    (h : c.Follows done (stretch ++ rest)) {i : Nat} (hi : i ∈ done) : i ∉ stretch.flatten := by
  induction stretch generalizing done with
  | nil => exact List.not_mem_nil
  | cons batch stretch ih =>
    rw [List.flatten_cons, List.mem_append, not_or]
    exact ⟨fun hm => (h.1.2 i hm).2.1 hi, ih h.2 (.inl hi)⟩

omit [Scalar α] in
theorem Circuit.Follows.covers {c : Circuit α} {done : Set Nat} {schedule : List (List Nat)}
    (h : c.Follows done schedule) {i : Nat} (hi : i < c.parts.size) (hn : i ∉ done) :
    i ∈ schedule.flatten := by
  induction schedule generalizing done with
  | nil => exact absurd (h i hi) hn
  | cons batch rest ih =>
    rw [List.flatten_cons, List.mem_append]
    by_cases hm : i ∈ batch
    · exact .inl hm
    · exact .inr (ih h.2 fun hd => hd.elim hn hm)

namespace Simulator

omit [Scalar α] in
theorem write_size (values : Values α) (xs : List (Nat × List α)) :
    (write values xs).size = values.size := by
  induction xs generalizing values with
  | nil => rfl
  | cons x xs ih => rw [write, ih, Array.size_setIfInBounds]

omit [Scalar α] in
theorem write_of_not_mem {batch : List Nat} {outputs : List (List α)} {i : Nat} (values : Values α)
    (h : i ∉ batch) : Values.of (write values (batch.zip outputs)) i = values.of i := by
  induction batch generalizing values outputs with
  | nil => rfl
  | cons b batch ih =>
    cases outputs with
    | nil => rfl
    | cons o outputs =>
      simp only [List.mem_cons, not_or] at h
      rw [List.zip_cons_cons, write, ih _ h.2]
      simp only [Values.of, Array.getD_eq_getD_getElem?,
        Array.getElem?_setIfInBounds_ne (Ne.symm h.1)]

omit [Scalar α] in
/-- What stands behind a batch at one of its places. -/
theorem write_of_mem {R : Nat → List α → Prop} {batch : List Nat} {outputs : List (List α)}
    {i : Nat} (values : Values α) (hr : List.Forall₂ R batch outputs) (hn : batch.Nodup)
    (hb : ∀ b ∈ batch, b < values.size) (h : i ∈ batch) :
    R i (Values.of (write values (batch.zip outputs)) i) := by
  induction hr generalizing values with
  | nil => simp at h
  | @cons b o batch outputs hbo hr ih =>
    rw [List.zip_cons_cons, write]
    obtain ⟨hni, hn⟩ := List.nodup_cons.1 hn
    rcases List.mem_cons.1 h with rfl | h
    · rw [write_of_not_mem _ hni, Values.of_set (hb i List.mem_cons_self), if_pos rfl]
      exact hbo
    · refine ih _ hn ?_ h
      intro b hm
      rw [Array.size_setIfInBounds]
      exact hb b (List.mem_cons_of_mem _ hm)

variable {c : Circuit α} {kernel : Kernel α} {t : α}

/-- A stretch of a schedule gives the parts on it their outputs and leaves the others as they are. -/
theorem sweep_stretch {stretch rest : List (List Nat)} {done : Set Nat} {values new : Values α}
    (hf : c.Follows done (stretch ++ rest)) (hv : values.size = c.parts.size)
    (hs : sweep c kernel t stretch values = (.ok (), new)) :
    new.size = c.parts.size ∧ (∀ i, i ∉ stretch.flatten → new.of i = values.of i) ∧
      ∀ i p, i ∈ stretch.flatten → c.parts[i]? = some p →
        p.output kernel t i (c.sizes.getD i 0) (values.of i) new.of = .ok (new.of i) := by
  induction stretch generalizing done values with
  | nil =>
    cases hs
    exact ⟨hv, fun i _ => rfl, fun i p hi => absurd hi List.not_mem_nil⟩
  | cons batch stretch ih =>
    have hnot := fun i (hi : i ∈ done) => hf.not_mem hi
    obtain ⟨⟨hn, hb⟩, hf⟩ := hf
    rw [sweep] at hs
    split at hs
    · cases hs
    · rename_i outputs ho
      have hr := mapM_eq_ok.1 ho
      have hkeep : ∀ i, i ∉ batch → Values.of (write values (batch.zip outputs)) i = values.of i :=
        fun i hi => write_of_not_mem values hi
      obtain ⟨hsize, hother, hout⟩ := ih hf (by rw [write_size, hv]) hs
      have hold : ∀ i, i ∉ (batch :: stretch).flatten → new.of i = values.of i := by
        intro i hi
        simp only [List.flatten_cons, List.mem_append, not_or] at hi
        rw [hother i hi.2, hkeep i hi.1]
      refine ⟨hsize, hold, ?_⟩
      intro i p hi hp
      rw [List.flatten_cons, List.mem_append] at hi
      by_cases hm : i ∈ batch
      · have hw := write_of_mem values hr hn (fun b hb' => hv ▸ (hb b hb').1) hm
        rw [Circuit.evaluate_eq_output c hp] at hw
        rw [hother i (hf.not_mem (.inr hm)), ← hw]
        exact Part.output_congr fun j hj => hold j (hnot j ((hb i hm).2.2 p hp j hj))
      · rw [← hkeep i hm]
        exact hout i p (hi.resolve_left hm) hp

/-- A sweep that succeeds leaves what is done as it is and gives every other part its output. -/
theorem sweep_ok {schedule : List (List Nat)} {done : Set Nat} {values new : Values α}
    (hf : c.Follows done schedule) (hv : values.size = c.parts.size)
    (hs : sweep c kernel t schedule values = (.ok (), new)) :
    new.size = c.parts.size ∧ (∀ i ∈ done, new.of i = values.of i) ∧
      ∀ i p, i ∉ done → c.parts[i]? = some p →
        p.output kernel t i (c.sizes.getD i 0) (values.of i) new.of = .ok (new.of i) := by
  have hf' : c.Follows done (schedule ++ []) := (List.append_nil schedule).symm ▸ hf
  obtain ⟨hsize, hother, hout⟩ := sweep_stretch hf' hv hs
  refine ⟨hsize, fun i hi => hother i (hf'.not_mem hi), fun i p hi hp => hout i p ?_ hp⟩
  exact hf.covers (Array.getElem?_eq_some_iff.1 hp).1 hi

/-- Where there are values that settle the old ones, a sweep succeeds and ends with them. -/
theorem sweep_of_settles {schedule : List (List Nat)} {done : Set Nat} {old values new : Values α}
    (hnew : c.Settles kernel t old new) (hf : c.Follows done schedule)
    (hv : values.size = c.parts.size) (hdone : ∀ i ∈ done, values.of i = new.of i)
    (hrest : ∀ i, i ∉ done → values.of i = old.of i) :
    sweep c kernel t schedule values = (.ok (), new) := by
  induction schedule generalizing done values with
  | nil =>
    rw [sweep, Values.ext (hv.trans hnew.size.symm) fun i hi => hdone i (hf i (hv ▸ hi))]
  | cons batch rest ih =>
    obtain ⟨⟨hn, hb⟩, hf⟩ := hf
    have heval : ∀ i ∈ batch, c.evaluate kernel t values i = .ok (new.of i) := by
      intro i hi
      obtain ⟨hlt, hni, hin⟩ := hb i hi
      have hp : c.parts[i]? = some c.parts[i] := Array.getElem?_eq_getElem hlt
      rw [Circuit.evaluate_eq_output c hp, hrest i hni,
        Part.output_congr fun j hj => hdone j (hin _ hp j hj)]
      exact hnew.output i _ hp
    have hm := mapM_eq_ok_map heval
    rw [sweep, hm]
    refine ih hf (by rw [write_size, hv]) ?_ ?_
    · intro i hi
      by_cases hib : i ∈ batch
      · have hw : c.evaluate kernel t values i =
            .ok (Values.of (write values (batch.zip (batch.map new.of))) i) :=
          write_of_mem values (mapM_eq_ok.1 hm) hn (fun b hb' => hv ▸ (hb b hb').1) hib
        rw [heval i hib] at hw
        exact (Except.ok.inj hw).symm
      · rw [write_of_not_mem values hib]
        exact hdone i (hi.resolve_right hib)
    · intro i hi
      simp only [Set.mem_union, Set.mem_ofPred_eq, not_or] at hi
      rw [write_of_not_mem values hi.2]
      exact hrest i hi.1

/-- A sweep along a schedule ends well exactly with the values that settle the old ones. -/
theorem sweep_eq_ok_iff {schedule : List (List Nat)} {old new : Values α}
    (hf : c.Follows ∅ schedule) (hv : old.size = c.parts.size) :
    sweep c kernel t schedule old = (.ok (), new) ↔ c.Settles kernel t old new := by
  constructor
  · intro hs
    obtain ⟨hsize, -, hout⟩ := sweep_ok hf hv hs
    exact ⟨hsize, fun i p hp => hout i p (Set.notMem_empty i) hp⟩
  · intro hnew
    exact sweep_of_settles hnew hf hv (fun i hi => absurd hi (Set.notMem_empty i)) fun i _ => rfl

end Simulator

end SignalGraph
