import Mathlib.Data.List.Basic
import SignalGraph.Network.Target
import SignalGraph.Proofs.Computation

namespace SignalGraph

variable {α : Type}

namespace NetworkObject

/-- The objects that have to be there before this one. -/
def reads : NetworkObject α → List Handle
  | source _ => []
  | linear inputs _ => inputs
  | nonlinear input .. | feedback input _ | filter input _ | slice input _ => [input]

/-- The object that closes the loop of a feedback object. -/
def integrand? : NetworkObject α → Option Handle
  | feedback _ integrand => integrand
  | _ => none

theorem stepInputs_subset_reads (o : NetworkObject α) : ∀ h ∈ o.stepInputs, h ∈ o.reads := by
  cases o <;> simp [stepInputs, reads]

/-- Whether the parameters of an object fit its size and those of what it reads. -/
def Fits [Scalar α] (size : Nat) : NetworkObject α → Prop
  | source signal => signal.size = size ∧ size ≠ 0
  | linear inputs coefficients =>
    inputs ≠ [] ∧ inputs.length = coefficients.length ∧ size ≠ 0 ∧
      ∀ p ∈ inputs.zip coefficients, p.2.nrows = size ∧ p.2.ncols = p.1.size
  | nonlinear _ _ params =>
    size ≠ 0 ∧ (params.neuronType = .lifRate → params.neuronCount ≠ 0) ∧
      Scalar.less Scalar.zero params.radius = true ∧ Scalar.isFinite params.radius = true
  | feedback input integrand => input.size = size ∧ ∀ f ∈ integrand, f.size = size
  | filter input tau =>
    input.size = size ∧ Scalar.atMost Scalar.zero tau = true ∧ Scalar.isFinite tau = true
  | slice input indices => indices.length = size ∧ size ≠ 0 ∧ ∀ i ∈ indices, i < input.size

end NetworkObject

namespace Request

/-- The object that is asked for. -/
def object : Request α → NetworkObject α
  | source signal => .source signal
  | linear inputs coefficients => .linear inputs coefficients
  | nonlinear input function _ params => .nonlinear input function params
  | feedback input => .feedback input none
  | filter input tau => .filter input tau
  | slice input indices => .slice input indices

/-- How many values the object puts out. -/
def size : Request α → Nat
  | source signal => signal.size
  | linear _ coefficients => Network.outputCount coefficients
  | nonlinear _ _ size _ => size
  | feedback input | filter input _ => input.size
  | slice _ indices => indices.length

end Request

namespace Network

theorem holds_iff {net : Network α} {h : Handle} :
    net.holds h = true ↔ ∃ r, net.objects[h.id]? = some r ∧ r.size = h.size := by
  unfold holds
  cases net.objects[h.id]? <;> simp

theorem holds_lt {net : Network α} {h : Handle} (hh : net.holds h = true) : h.id < net.size := by
  obtain ⟨r, hr, -⟩ := holds_iff.1 hh
  exact (Array.getElem?_eq_some_iff.1 hr).1

@[simp] theorem check_eq_ok {net : Network α} {h : Handle} {u : Unit} :
    net.check h = .ok u ↔ net.holds h = true := by
  unfold check
  split <;> simp_all

theorem checkCoefficients_eq_ok {net : Network α} {rows : Nat} {ps : List (Handle × Matrix α)}
    {u : Unit} : net.checkCoefficients rows ps = .ok u ↔
      ∀ p ∈ ps, net.holds p.1 = true ∧ p.2.nrows = rows ∧ p.2.ncols = p.1.size := by
  induction ps with
  | nil => simp [checkCoefficients]
  | cons p ps ih =>
    obtain ⟨h, m⟩ := p
    simp [checkCoefficients, ih, and_assoc]

variable [Scalar α]

/-- A request is granted when its object reads objects of the network and fits its size. -/
theorem grant_eq_ok {net : Network α} {r : Request α} {o : NetworkObject α} {n : Nat} :
    net.grant r = .ok (o, n) ↔
      (r.object = o ∧ r.size = n) ∧ (∀ h ∈ r.object.reads, net.holds h = true) ∧
        r.object.Fits r.size := by
  cases r with
  | source signal =>
    simp only [grant, Request.object, Request.size, NetworkObject.reads, NetworkObject.Fits]
    split <;> simp_all
  | linear inputs coefficients =>
    have hzip (hl : inputs.length = coefficients.length) :
        (∀ p ∈ inputs.zip coefficients, net.holds p.1 = true) ↔
          ∀ h ∈ inputs, net.holds h = true := by
      conv => rhs; rw [← List.map_fst_zip (Nat.le_of_eq hl)]
      simp
    simp only [grant, Request.object, Request.size, NetworkObject.reads, NetworkObject.Fits]
    simp [checkCoefficients_eq_ok, forall_and]
    grind
  | nonlinear input function size params =>
    simp [grant, Request.object, Request.size, NetworkObject.reads, NetworkObject.Fits]
    grind
  | feedback input =>
    simp [grant, Request.object, Request.size, NetworkObject.reads, NetworkObject.Fits]
    grind
  | filter input tau =>
    simp [grant, Request.object, Request.size, NetworkObject.reads, NetworkObject.Fits]
    grind
  | slice input indices =>
    simp [grant, Request.object, Request.size, NetworkObject.reads, NetworkObject.Fits]
    split <;> simp_all
    all_goals grind

/-- A call that adds an object puts it behind the others. -/
theorem create_eq_ok {net net' : Network α} {r : Request α} {h : Handle} :
    net.create r = .ok (h, net') ↔
      (h = ⟨net.size, r.size⟩ ∧ net' = (net.push r.object r.size).2) ∧
        (∀ h ∈ r.object.reads, net.holds h = true) ∧ r.object.Fits r.size := by
  simp only [create, bind_eq_ok, pure_eq_ok, Prod.exists, grant_eq_ok]
  constructor
  · rintro ⟨o, n, ⟨⟨rfl, rfl⟩, hr⟩, he⟩
    cases he
    exact ⟨⟨rfl, rfl⟩, hr⟩
  · rintro ⟨⟨rfl, rfl⟩, hr⟩
    exact ⟨_, _, ⟨⟨rfl, rfl⟩, hr⟩, rfl⟩

/-- The object that a call has made. -/
theorem create_object {net t : Network α} {q : Request α} {h : Handle}
    (hc : net.create q = .ok (h, t)) :
    h.id = net.size ∧ t.objects[h.id]? = some ⟨q.object, h.size⟩ ∧ t.size = net.size + 1 := by
  obtain ⟨⟨rfl, rfl⟩, -⟩ := create_eq_ok.1 hc
  refine ⟨rfl, ?_, ?_⟩
  · simp [push, size]
  · simp [push, size]

omit [Scalar α] in
/-- A call that closes a loop writes its handle into an open feedback object of the same size. -/
theorem connect_eq_ok {net net' : Network α} {h f : Handle} :
    net.connect h f = .ok net' ↔
      net.holds f = true ∧ f.size = h.size ∧
        ∃ input, net.objects[h.id]? = some ⟨.feedback input none, h.size⟩ ∧
          net' = { net with
            objects := net.objects.setIfInBounds h.id ⟨.feedback input (some f), h.size⟩ } := by
  simp only [connect, bind_eq_ok, guard_eq_ok, check_eq_ok, not_not]
  constructor
  · rintro ⟨-, hh, -, hf, hs, hm⟩
    obtain ⟨⟨o, n⟩, hr, hn⟩ := holds_iff.1 hh
    cases hn
    rw [hr] at hm
    split at hm <;> cases hm
    rename_i input _ he
    cases he
    exact ⟨hf, hs, input, hr, rfl⟩
  · rintro ⟨hf, hs, input, hr, rfl⟩
    refine ⟨⟨⟩, holds_iff.2 ⟨_, hr, rfl⟩, ⟨⟩, hf, hs, ?_⟩
    rw [hr]
    rfl

omit [Scalar α] in
theorem probe_eq_ok {net net' : Network α} {h : Handle} {k : Nat} :
    net.probe h = .ok (k, net') ↔
      net.holds h = true ∧ k = net.probes.size ∧
        net' = { net with probes := net.probes.push h } := by
  simp only [probe, bind_eq_ok, check_eq_ok, pure_eq_ok]
  constructor
  · rintro ⟨-, hh, he⟩
    cases he
    exact ⟨hh, rfl, rfl⟩
  · rintro ⟨hh, rfl, rfl⟩
    exact ⟨⟨⟩, hh, rfl⟩

end Network

end SignalGraph
