import Mathlib.Data.List.Rotate
import RadarHost.Proofs.Matrix.Transposition

/-!
# Every place is visited once

`CycleVisits` and `SweepVisits` are the runs of `CycleRun` and `Sweep` with the places that they
are at, in order; each of these goes into the set of placed places (`cycleRun_iff`, `sweep_iff`).
One step along a cycle inserts a place that was not in the set (`Parked.inserts`), and so does every
step of a cycle (`Parked.cycle_inserts`) and of a sweep (`Settled.sweep_inserts`). A sweep of all
inner places ends with all of them in the set, so that it has been at each of them just once:
`every_place_visited_once`.
-/

namespace RadarHost

namespace Transpose

variable {α : Type} {rows cols last start index : Nat} {before : Array α}
  {work mid after : Work α} {starts visited later : List Nat} {cycles : List (List Nat)}

/-- A cycle from `index` on, followed until its target is `start` again, with the places that it is
at. -/
inductive CycleVisits (rows last start : Nat) : Nat → Work α → List Nat → Work α → Prop
  | closed {index : Nat} {work : Work α} (hh : work.placed.Holds index)
      (hc : target rows last index = start) :
      CycleVisits rows last start index work [index]
        { work with placed := work.placed.insert index }
  | swapped {index : Nat} {work after : Work α} {visited : List Nat}
      (hh : work.placed.Holds index) (hn : target rows last index ≠ start)
      (hs : start < work.buffer.size) (ht : target rows last index < work.buffer.size)
      (rest : CycleVisits rows last start (target rows last index)
        ⟨work.buffer.swap start (target rows last index), work.placed.insert index⟩ visited
        after) :
      CycleVisits rows last start index work (index :: visited) after

/-- The cycles of some places, each of them followed unless it has been already, with the places
that each is at. -/
inductive SweepVisits (rows last : Nat) : List Nat → Work α → List (List Nat) → Work α → Prop
  | done {work : Work α} : SweepVisits rows last [] work [] work
  | skipped {start : Nat} {starts : List Nat} {work after : Work α} {cycles : List (List Nat)}
      (hh : work.placed.Holds start) (hc : work.placed.contains start = true)
      (rest : SweepVisits rows last starts work cycles after) :
      SweepVisits rows last (start :: starts) work cycles after
  | followed {start : Nat} {starts visited : List Nat} {work closed after : Work α}
      {cycles : List (List Nat)} (hh : work.placed.Holds start)
      (hc : work.placed.contains start = false)
      (cycle : CycleVisits rows last start start work visited closed)
      (rest : SweepVisits rows last starts closed cycles after) :
      SweepVisits rows last (start :: starts) work (visited :: cycles) after

theorem cycleRun_iff : CycleRun rows last start index work after ↔
    ∃ visited, CycleVisits rows last start index work visited after := by
  constructor
  · intro h
    induction h with
    | closed hh hc => exact ⟨_, .closed hh hc⟩
    | swapped hh hn hs ht _ ih =>
      obtain ⟨visited, hv⟩ := ih
      exact ⟨_, .swapped hh hn hs ht hv⟩
  · rintro ⟨visited, hv⟩
    induction hv with
    | closed hh hc => exact .closed hh hc
    | swapped hh hn hs ht _ ih => exact .swapped hh hn hs ht ih

theorem sweep_iff : Sweep rows last starts work after ↔
    ∃ cycles, SweepVisits rows last starts work cycles after := by
  constructor
  · intro h
    induction h with
    | done => exact ⟨_, .done⟩
    | skipped hh hc _ ih =>
      obtain ⟨cycles, hv⟩ := ih
      exact ⟨_, .skipped hh hc hv⟩
    | followed hh hc cycle _ ih =>
      obtain ⟨visited, hcycle⟩ := cycleRun_iff.1 cycle
      obtain ⟨cycles, hv⟩ := ih
      exact ⟨_, .followed hh hc hcycle hv⟩
  · rintro ⟨cycles, hv⟩
    induction hv with
    | done => exact .done
    | skipped hh hc _ ih => exact .skipped hh hc ih
    | followed hh hc cycle _ ih => exact .followed hh hc (cycleRun_iff.2 ⟨_, cycle⟩) ih

/-! ## Coming round -/

/-- Some places are a cycle: the target of each is the next one, and that of the last is the
first. -/
def Cyclic (rows last : Nat) (places : List Nat) : Prop :=
  places ≠ [] ∧ places.map (target rows last) = places.rotate 1

theorem CycleVisits.map_target (h : CycleVisits rows last start index work visited after) :
    ∃ rest, visited = index :: rest ∧ visited.map (target rows last) = rest ++ [start] := by
  induction h with
  | closed _ hc => exact ⟨[], rfl, congrArg ([·]) hc⟩
  | swapped _ _ _ _ _ ih =>
    obtain ⟨rest, rfl, hmap⟩ := ih
    refine ⟨_, rfl, ?_⟩
    rw [List.map_cons, hmap]
    rfl

/-- The run of a cycle comes back to its start. -/
theorem CycleVisits.cyclic (h : CycleVisits rows last start start work visited after) :
    Cyclic rows last visited := by
  obtain ⟨rest, rfl, hmap⟩ := h.map_target
  refine ⟨List.cons_ne_nil _ _, ?_⟩
  rw [hmap, List.rotate_cons_succ, List.rotate_zero]

theorem SweepVisits.cyclic (h : SweepVisits rows last starts work cycles after) :
    ∀ cycle ∈ cycles, Cyclic rows last cycle := by
  induction h with
  | done => exact List.forall_mem_nil _
  | skipped _ _ _ ih => exact ih
  | followed _ _ cycle _ ih => exact List.forall_mem_cons.2 ⟨cycle.cyclic, ih⟩

/-! ## What is inserted -/

/-- Some inner places have gone into the set, each of them once. -/
structure Inserts (last : Nat) (work : Work α) (visited : List Nat) (after : Work α) : Prop where
  inner : ∀ i ∈ visited, Inner last i
  fresh : ∀ i ∈ visited, work.placed.contains i = false
  nodup : visited.Nodup
  contains_iff (i : Nat) :
    after.placed.contains i = true ↔ i ∈ visited ∨ work.placed.contains i = true

theorem Inserts.nothing (last : Nat) (work : Work α) : Inserts last work [] work where
  inner := List.forall_mem_nil _
  fresh := List.forall_mem_nil _
  nodup := List.nodup_nil
  contains_iff _ := (or_iff_right List.not_mem_nil).symm

theorem Inserts.append (h : Inserts last work visited mid) (h' : Inserts last mid later after) :
    Inserts last work (visited ++ later) after where
  inner := List.forall_mem_append.2 ⟨h.inner, h'.inner⟩
  fresh := by
    refine List.forall_mem_append.2 ⟨h.fresh, fun i hi => ?_⟩
    have hmid := h'.fresh i hi
    rw [← Bool.not_eq_true, h.contains_iff, not_or, Bool.not_eq_true] at hmid
    exact hmid.2
  nodup := by
    refine h.nodup.append h'.nodup fun i hi hi' => ?_
    have hmid := (h.contains_iff i).2 (.inl hi)
    rw [h'.fresh i hi'] at hmid
    cases hmid
  contains_iff i := by
    rw [h'.contains_iff, h.contains_iff, List.mem_append, or_left_comm, or_assoc]

/-- One step along a cycle inserts the place that it is at. -/
theorem Parked.inserts (h : Parked before rows last start index work) (buffer : Array α) :
    Inserts last work [index] ⟨buffer, work.placed.insert index⟩ where
  inner := List.forall_mem_singleton.2 h.inner_index
  fresh := List.forall_mem_singleton.2 h.unplaced
  nodup := List.nodup_singleton index
  contains_iff i := by rw [h.contains_insert, List.mem_singleton, eq_comm]

/-- A cycle inserts all places that it is at. -/
theorem Parked.cycle_inserts (hp : Permutes rows last)
    (h : Parked before rows last start index work)
    (hv : CycleVisits rows last start index work visited after) :
    Inserts last work visited after ∧ Settled before rows last after := by
  induction hv with
  | closed hh hc => exact ⟨h.inserts _, h.close hp hc⟩
  | swapped hh hn hs ht _ ih =>
    obtain ⟨hrest, hsettled⟩ := ih (h.swap hp hn hs ht)
    exact ⟨(h.inserts _).append hrest, hsettled⟩

/-- A sweep inserts all places that its cycles are at. -/
theorem Settled.sweep_inserts (hp : Permutes rows last) (h : Settled before rows last work)
    (hs : ∀ start ∈ starts, Inner last start)
    (hv : SweepVisits rows last starts work cycles after) :
    Inserts last work cycles.flatten after := by
  induction hv with
  | done => exact .nothing last _
  | skipped _ _ _ ih => exact ih h (List.forall_mem_cons.1 hs).2
  | followed _ hc cycle _ ih =>
    obtain ⟨hi, hs⟩ := List.forall_mem_cons.1 hs
    obtain ⟨hcycle, hsettled⟩ := (h.park hi hc).cycle_inserts hp cycle
    exact hcycle.append (ih hsettled hs)

/-! ## Transposition in place -/

theorem mem_starts_iff {place : Nat} : place ∈ List.range' 1 (last - 1) ↔ Inner last place := by
  rw [List.mem_range'_1, Inner]
  omega

/-- A transposition in place comes to its end without a bound on its loops. It is at every place
between the first and the last just once, and at no other, and every target is such a place. Each
cycle comes back to its start. In an array of fewer than 2⁶⁴ elements, the product of a place that
it is at and the number of rows has no more than 128 bits. -/
theorem every_place_visited_once (buffer : Array α) (hr : 2 ≤ rows) (hc : 2 ≤ cols)
    (h : rows * cols = buffer.size) :
    let last := buffer.size - 1
    let begun : Work α := ⟨buffer, .ofLen buffer.size⟩
    (∃ cycles work, SweepVisits rows last (List.range' 1 (last - 1)) begun cycles work ∧
      inPlace buffer rows cols = .ok work.buffer) ∧
    ∀ cycles work, SweepVisits rows last (List.range' 1 (last - 1)) begun cycles work →
      (∀ cycle ∈ cycles, Cyclic rows last cycle) ∧
      cycles.flatten.Perm (List.range' 1 (buffer.size - 2)) ∧
      cycles.flatten.length = buffer.size - 2 ∧
      ∀ index ∈ cycles.flatten, Inner last index ∧ Inner last (target rows last index) ∧
        (buffer.size < 2 ^ 64 → index * rows < 2 ^ 128) := by
  intro last begun
  have hp : Permutes rows last := by
    rw [show last = rows * cols - 1 from congrArg (· - 1) h.symm]
    exact permutes rows cols
  have hstarts : ∀ start ∈ List.range' 1 (last - 1), Inner last start :=
    fun _ => mem_starts_iff.1
  refine ⟨?_, fun cycles work hv => ?_⟩
  · obtain ⟨after, hrun, hval, -⟩ := transposes_inPlace h.symm
    cases hrun with
    | vector _ hvector => omega
    | cycles _ _ _ sweep =>
      obtain ⟨cycles, hv⟩ := sweep_iff.1 sweep
      exact ⟨cycles, _, hv, hval⟩
  · have hinserts := (settled_start buffer rows).sweep_inserts hp hstarts hv
    have hsweep := sweep_iff.2 ⟨cycles, hv⟩
    -- nothing was in the set before the sweep, so that all in it now has been inserted
    have hmem (place : Nat) : place ∈ cycles.flatten ↔ place ∈ List.range' 1 (last - 1) := by
      refine ⟨fun hi => mem_starts_iff.2 (hinserts.inner place hi), fun hi => ?_⟩
      have hplaced := (hinserts.contains_iff place).1 (hsweep.contains (.inl hi))
      rw [PlacedSet.contains_ofLen] at hplaced
      exact hplaced.resolve_right Bool.false_ne_true
    have hperm : cycles.flatten.Perm (List.range' 1 (last - 1)) :=
      (List.perm_ext_iff_of_nodup hinserts.nodup List.nodup_range').2 hmem
    refine ⟨hv.cyclic, hperm, hperm.length_eq.trans List.length_range', fun index hi => ?_⟩
    have hinner := hinserts.inner index hi
    refine ⟨hinner, hp.inner hinner, fun hsize => ?_⟩
    have hindex : index < 2 ^ 64 := by
      have := hinner.2
      omega
    have hrows : rows < 2 ^ 64 := by
      have := Nat.le_mul_of_pos_right rows (show 0 < cols by omega)
      omega
    calc index * rows < 2 ^ 64 * 2 ^ 64 := Nat.mul_lt_mul'' hindex hrows
      _ = 2 ^ 128 := rfl

/-- A matrix of three rows and four columns: its ten inner places are visited once. -/
theorem every_place_visited_once_three_by_four :
    let buffer := Array.range 12
    2 ≤ 3 ∧ 2 ≤ 4 ∧ 3 * 4 = buffer.size ∧ buffer.size < 2 ^ 64 ∧
      ∃ cycles work, SweepVisits 3 11 (List.range' 1 10) ⟨buffer, .ofLen 12⟩ cycles work ∧
        inPlace buffer 3 4 = .ok work.buffer ∧ (∀ cycle ∈ cycles, Cyclic 3 11 cycle) ∧
        cycles.flatten.Perm [1, 2, 3, 4, 5, 6, 7, 8, 9, 10] ∧
        ∀ index ∈ cycles.flatten, index * 3 < 2 ^ 128 := by
  intro buffer
  have hshape : 3 * 4 = buffer.size := by decide
  have hsize : buffer.size < 2 ^ 64 := by decide
  obtain ⟨⟨cycles, work, hv, hval⟩, hvisits⟩ :=
    every_place_visited_once buffer (by decide) (by decide) hshape
  obtain ⟨hcyclic, hperm, -, hinner⟩ := hvisits cycles work hv
  exact ⟨by decide, by decide, hshape, hsize, cycles, work, hv, hval, hcyclic, hperm,
    fun index hi => (hinner index hi).2.2 hsize⟩

end Transpose

end RadarHost
