import SignalGraph.Proofs.Arrays.Views
import SignalGraph.Proofs.Network.Histories
import SignalGraph.Run.Capture

namespace SignalGraph

namespace TimeAxis

/-- The shape of `n` steps of arrays of shape `s`, with `width` values in each place. -/
def shape (axis : TimeAxis) (s : Shape) (n width : Nat) : Shape :=
  match axis with
  | leading => n :: s ++ [width]
  | trailing => s ++ [n, width]

/-- The index of value `j` at index `i` in step `k`. -/
def place (axis : TimeAxis) (i : List Nat) (k j : Nat) : List Nat :=
  match axis with
  | leading => k :: i ++ [j]
  | trailing => i ++ [k, j]

/-- The entries of an array of matrices as one array, with the rows for steps. -/
structure Stacks {α : Type} [Inhabited α] (axis : TimeAxis) (n width : Nat)
    (traces : NDArray (Matrix α)) (out : NDArray α) : Prop where
  shape : out.shape = axis.shape traces.shape n width
  entry : ∀ i m, traces.get? i = some m → ∀ k < n, ∀ j < width,
    out.get? (axis.place i k j) = some (m.entry k j)

theorem within_place (axis : TimeAxis) {s : Shape} {i : List Nat} {n width k j : Nat}
    (hi : Shape.Within i s) (hk : k < n) (hj : j < width) :
    Shape.Within (axis.place i k j) (axis.shape s n width) := by
  cases axis with
  | leading => exact ⟨hk, Shape.within_append hi ⟨hj, trivial⟩⟩
  | trailing => exact Shape.within_append hi ⟨hk, hj, trivial⟩

open Capture in
theorem stepsFirst_perm (rank : Nat) : (stepsFirst rank).Perm (List.range (rank + 2)) := by
  refine NDArray.perm_range (by simp [stepsFirst]) fun t ht => ?_
  simp only [stepsFirst, List.mem_append, List.mem_cons, List.mem_range, List.not_mem_nil, or_false]
  omega

open Capture in
/-- The numbers along the axes with that of the steps in front. -/
theorem stepsFirst_map (i : List Nat) (k j : Nat) :
    (stepsFirst i.length).map ((trailing.place i k j).getD · 0) = leading.place i k j := by
  have hrest : (List.range i.length).map ((i ++ [k, j]).getD · 0) = i := by
    nth_rewrite 3 [← NDArray.map_getD_range i 0]
    exact List.map_congr_left fun t ht =>
      List.getD_append _ _ 0 t (List.mem_range.1 ht)
  simp only [stepsFirst, place, List.map_append, List.map_cons, List.map_nil, hrest]
  simp

end TimeAxis

variable {α : Type} [Scalar α]

/-- Matrices of one size, row by row and one behind the other. -/
theorem Matrix.flatMap_data {ms : List (Matrix α)} {n width : Nat}
    (hm : ∀ m ∈ ms, m.nrows = n ∧ m.ncols = width) :
    (ms.flatMap (·.data.toList)).length = ms.length * (n * width) ∧
      ∀ (p : Nat) (m : Matrix α), ms[p]? = some m → ∀ k < n, ∀ j < width,
        (ms.flatMap (·.data.toList))[p * (n * width) + (k * width + j)]? = some (m.entry k j) := by
  have hblocks : ∀ xs ∈ ms.map (·.data.toList), xs.length = n * width := by
    intro xs hxs
    obtain ⟨m, hmem, rfl⟩ := List.mem_map.1 hxs
    obtain ⟨hn, hc⟩ := hm m hmem
    rw [Vector.length_toList, hn, hc]
  obtain ⟨hlength, hblock⟩ := flatten_blocks hblocks
  rw [List.flatMap_def]
  refine ⟨by rw [hlength, List.length_map], fun p m hp k hk j hj => ?_⟩
  obtain ⟨rfl, rfl⟩ := hm m (List.mem_of_getElem? hp)
  have hplace := place_lt hk hj
  rw [hblock p _ m.data.toList (by simp [hp]) hplace, entry, if_pos hj, Vector.getElem?_toList,
    Vector.getElem?_eq_getElem hplace]
  rfl

namespace TimeAxis.Stacks

variable {n width : Nat} {traces : NDArray (Matrix α)} {out : NDArray α}

/-- Matrices of one size, one behind the other in row-major order. -/
theorem trailing (hs : out.shape = TimeAxis.trailing.shape traces.shape n width)
    (hl : out.toList = traces.toList.flatMap (·.data.toList))
    (hm : ∀ m ∈ traces.toList, m.nrows = n ∧ m.ncols = width) :
    TimeAxis.trailing.Stacks n width traces out := by
  refine ⟨hs, fun i m him k hk j hj => ?_⟩
  obtain ⟨hi, hmat⟩ := NDArray.get?_eq_some.1 him
  have hw := TimeAxis.within_place .trailing hi hk hj
  have hoffset : Shape.offset out.shape (TimeAxis.trailing.place i k j) =
      Shape.offset traces.shape i * (n * width) + (k * width + j) := by
    rw [hs, TimeAxis.shape, TimeAxis.place, Shape.offset_append hi]
    simp [Shape.size, Shape.offset]
  refine NDArray.get?_eq_some.2 ⟨hs ▸ hw, ?_⟩
  rw [hoffset, hl]
  exact (Matrix.flatMap_data hm).2 _ m hmat k hk j hj

/-- The axis of the steps is brought to the front. -/
theorem leading (h : TimeAxis.trailing.Stacks n width traces out) :
    ∃ b, out.permute (Capture.stepsFirst traces.rank) = .ok b ∧
      TimeAxis.leading.Stacks n width traces b := by
  have hrank : out.rank = traces.rank + 2 := by
    rw [NDArray.rank, h.shape, TimeAxis.shape, List.length_append]
    rfl
  have hperm := NDArray.permute_eq_ok.2 ⟨hrank ▸ TimeAxis.stepsFirst_perm traces.rank, rfl⟩
  have haxes : out.axisLength = ((traces.shape ++ [n, width]).getD · 0) := by
    funext t
    rw [NDArray.axisLength, h.shape, TimeAxis.shape]
  refine ⟨_, hperm, ?_, fun i m him k hk j hj => ?_⟩
  · rw [NDArray.gather, NDArray.shape_tabulate, haxes]
    exact TimeAxis.stepsFirst_map traces.shape n width
  · have hlength : i.length = traces.rank := Shape.within_length (NDArray.get?_eq_some.1 him).1
    have hplace : (TimeAxis.trailing.place i k j).length = out.rank := by
      simp [TimeAxis.place, hlength, hrank]
    rw [← TimeAxis.stepsFirst_map, hlength, NDArray.get?_permute_map hperm hplace]
    exact h.entry i m him k hk j hj

end TimeAxis.Stacks

/-- A list of effects that succeed, on an array. -/
theorem Stateful.array_mapM_ok {ε σ β γ : Type} {f : β → Stateful ε σ γ} {a : NDArray β}
    {ys : List γ} {s s' : σ} (h : (a.toList.mapM f).run s = (.ok ys, s')) :
    ∃ b, (a.mapM f).run s = (.ok b, s') ∧ b.shape = a.shape ∧ b.toList = ys := by
  rw [← NDArray.toList_mapM] at h
  obtain ⟨b, hb, hys⟩ := map_ok.1 h
  obtain ⟨data, -, hdata⟩ := map_ok.1 hb
  exact ⟨b, hb, by rw [← hdata], hys⟩

/-- Effects on an array are those on its values in row-major order. -/
theorem Stateful.of_array_mapM {ε σ β γ : Type} {f : β → Stateful ε σ γ} {a : NDArray β}
    {b : NDArray γ} {s s' : σ} (h : (a.mapM f).run s = (.ok b, s')) :
    b.shape = a.shape ∧ (a.toList.mapM f).run s = (.ok b.toList, s') := by
  constructor
  · obtain ⟨data, -, rfl⟩ := map_ok.1 h
    rfl
  · rw [← NDArray.toList_mapM]
    exact map_ok.2 ⟨b, h, rfl⟩

namespace Capture

variable {c : Capture} {r : Recording α}

/-- Objects of a network are probed behind the probes that are there, in row-major order. -/
theorem attach_run {net : Network α} {handles : NDArray Handle}
    (hh : ∀ w ∈ handles.toList, net.holds w = true) :
    ∃ capture, (attach Target.network handles).run net =
        (.ok capture, net.withProbes handles.toList) ∧
      capture.shape = handles.shape ∧
      capture.toList = handles.toList.mapIdx fun k w => ⟨net.probes.size + k, w.size⟩ := by
  have hrun := Network.probe_all (fun w p => (⟨p, w.size⟩ : Tap)) hh
  simp only [map_eq_pure_bind] at hrun
  exact Stateful.array_mapM_ok hrun

/-- Nothing but objects of the network is captured. -/
theorem attach_holds {net net' : Network α} {handles : NDArray Handle} {capture : Capture}
    (h : (attach Target.network handles).run net = (.ok capture, net')) :
    ∀ w ∈ handles.toList, net.holds w = true := by
  obtain ⟨-, hlist⟩ := Stateful.of_array_mapM h
  obtain ⟨-, -, hall⟩ := Stateful.mapM_ok (I := fun t => t.objects = net.objects)
    (R := fun _ _ => True) (Q := fun w _ _ => net.holds w = true) (fun _ => trivial)
    (fun _ _ => trivial) (fun hw _ => hw)
    (fun w _ tap t t' ht hrun => by
      simp only [Stateful.bind_ok, Stateful.pure_ok] at hrun
      obtain ⟨p, _, hprobe, -, rfl⟩ := hrun
      obtain ⟨hheld, -, rfl⟩ := Network.probe_eq_ok.1 (Realize.ofCall_ok.1 hprobe)
      refine ⟨ht, trivial, ?_⟩
      rwa [Network.holds, ht] at hheld) rfl hlist
  intro w hw
  obtain ⟨-, hheld⟩ := forall₂_mem_left hall hw
  exact hheld

omit [Scalar α] in
/-- The taps of a capture are on the handles. -/
theorem attach_probes {net : Network α} {ws : List Handle} {taps : List Tap}
    (ht : taps = ws.mapIdx fun k w => ⟨net.probes.size + k, w.size⟩) :
    List.Forall₂ (fun w tap => (net.withProbes ws).probes[tap.probe]? = some w ∧ tap.size = w.size)
      ws taps := by
  subst ht
  rw [List.forall₂_iff_get]
  refine ⟨by simp, fun k hk hk' => ?_⟩
  simp [Network.withProbes_getElem?]

omit [Scalar α] in
theorem trace_eq_ok {tap : Tap} {m : Matrix α} :
    trace r tap = .ok m ↔ r.traces[tap.probe]? = some m ∧ m.ncols = tap.size := by
  rw [trace]
  cases r.traces[tap.probe]? with
  | none => simp
  | some m' =>
    simp only [guard_eq_ok, pure_eq_ok, not_not, Option.some.injEq]
    constructor
    · rintro ⟨hs, rfl⟩
      exact ⟨rfl, hs⟩
    · rintro ⟨rfl, hs⟩
      exact ⟨hs, rfl⟩

/-- All traces in one array, if it can be stored. -/
theorem extractDense_stacks (axis : TimeAxis) {traces : NDArray (Matrix α)} {width : Nat}
    (hs : traces.shape = c.shape)
    (ht : List.Forall₂ (fun tap m => trace r tap = .ok m) c.toList traces.toList)
    (hrows : ∀ m ∈ traces.toList, m.nrows = r.steps) (hsizes : ∀ tap ∈ c.toList, tap.size = width)
    (hwidth : (c.toList.map (·.size)).headD 0 = width) :
    ∃ out, axis.Stacks r.steps width traces out ∧ c.extractDense r axis =
      if Shape.addressable (c.shape ++ [r.steps, width]) then .ok out
      else .error (.graph (.shape (.invalid (.storage .overflow)))) := by
  have hm : ∀ m ∈ traces.toList, m.nrows = r.steps ∧ m.ncols = width := by
    intro m hmem
    obtain ⟨tap, htap, htrace⟩ := forall₂_mem_right ht hmem
    exact ⟨hrows m hmem, (trace_eq_ok.1 htrace).2.trans (hsizes tap htap)⟩
  have hlen : (traces.toList.flatMap (·.data.toList)).length =
      Shape.size (TimeAxis.trailing.shape c.shape r.steps width) := by
    rw [(Matrix.flatMap_data hm).1, NDArray.size_toList, hs, TimeAxis.shape, Shape.size_append]
    simp [Shape.size]
  obtain ⟨stored, hshape, hlist, hstore⟩ := NDArray.store_eq hlen
  have htrailing : TimeAxis.trailing.Stacks r.steps width traces stored :=
    .trailing (hs ▸ hshape) hlist hm
  have hfind : (c.toList.map (·.size)).find? (· ≠ width) = none := by
    rw [List.find?_eq_none]
    intro n hn
    obtain ⟨tap, htap, rfl⟩ := List.mem_map.1 hn
    simp [hsizes tap htap]
  rw [TimeAxis.shape] at hstore
  cases axis with
  | trailing =>
    have hdense : c.extractDense r .trailing =
        (NDArray.store (c.shape ++ [r.steps, width]) (traces.toList.flatMap (·.data.toList))).mapError
          (fun e => RunError.graph (.shape e)) >>= pure := by
      simp only [extractDense, hwidth, hfind, mapM_eq_ok.2 ht]
      rfl
    refine ⟨stored, htrailing, ?_⟩
    rw [hdense, hstore]
    split <;> rfl
  | leading =>
    have hdense : c.extractDense r .leading =
        (NDArray.store (c.shape ++ [r.steps, width]) (traces.toList.flatMap (·.data.toList))).mapError
          (fun e => RunError.graph (.shape e)) >>=
            fun a => (a.permute (stepsFirst c.rank)).mapError fun e => RunError.graph (.shape e) := by
      simp only [extractDense, hwidth, hfind, mapM_eq_ok.2 ht]
      rfl
    obtain ⟨out, hout, hleading⟩ := htrailing.leading
    have hrank : traces.rank = c.rank := congrArg List.length hs
    refine ⟨out, hleading, ?_⟩
    rw [hdense, hstore]
    split
    · change (stored.permute (stepsFirst c.rank)).mapError _ = _
      rw [← hrank, hout]
      rfl
    · rfl

/-- Traces of different sizes are not put into one array. -/
theorem extractDense_sizes (axis : TimeAxis)
    (h : ∃ tap ∈ c.toList, tap.size ≠ (c.toList.map (·.size)).headD 0) :
    ∃ other ∈ c.toList.map (·.size), other ≠ (c.toList.map (·.size)).headD 0 ∧
      c.extractDense r axis =
        .error (.graph (.invalid (.traceSizes ((c.toList.map (·.size)).headD 0) other))) := by
  obtain ⟨tap, htap, hne⟩ := h
  have hfind : ((c.toList.map (·.size)).find? (· ≠ (c.toList.map (·.size)).headD 0)).isSome := by
    rw [List.find?_isSome]
    exact ⟨tap.size, List.mem_map_of_mem htap, by simpa using hne⟩
  obtain ⟨other, hother⟩ := Option.isSome_iff_exists.1 hfind
  refine ⟨other, List.mem_of_find?_eq_some hother, by simpa using List.find?_some hother, ?_⟩
  simp only [extractDense, hother]
  rfl

end Capture

end SignalGraph
