import Mathlib.Data.Finset.Card
import Mathlib.Data.Finset.Filter
import Mathlib.Data.Finset.Range
import Mathlib.Tactic.Ring
import RadarHost.Matrix.Transpose

/-!
# Cycles of a transposition

`target_eq` is the arithmetic of the places: between the first and the last, the target of a place
is where the transpose has its element, so that targets stay between the two and no two places have
the same one (`permutes`). From these alone, `Parked.swap` is one step along a cycle, `Parked.close`
its last, and `Parked.run` the whole of it; `Settled.sweep` follows the cycles of all places one
after the other. `CycleRun` and `Sweep` are these runs without a bound on their steps, and with
every place that they look at there.
-/

namespace RadarHost

namespace Transpose

/-- Where the transpose of a `rows` by `cols` matrix has the element at `index`. -/
def transposed (rows cols index : Nat) : Nat := index % cols * rows + index / cols

/-- Whether a place is between the first and the last. -/
def Inner (last index : Nat) : Prop := 0 < index ∧ index < last

section Places

variable {rows cols i j : Nat}

theorem transposed_coords {r c : Nat} (hc : c < cols) :
    transposed rows cols (r * cols + c) = c * rows + r := by
  rw [transposed, Nat.mul_add_mod_self_right, Nat.mod_eq_of_lt hc, Nat.mul_comm r,
    Nat.mul_add_div (by omega), Nat.div_eq_of_lt hc, Nat.add_zero]

theorem row_lt (h : i < rows * cols) : i / cols < rows :=
  Nat.div_lt_of_lt_mul (Nat.mul_comm rows cols ▸ h)

theorem col_lt (h : i < rows * cols) : i % cols < cols :=
  Nat.mod_lt _ (Nat.pos_of_mul_pos_left (Nat.zero_lt_of_lt h))

/-- The place of row `r` and column `c` is there. -/
theorem coords_lt {r c : Nat} (hr : r < rows) (hc : c < cols) : r * cols + c < rows * cols :=
  calc r * cols + c < r * cols + cols := Nat.add_lt_add_left hc _
    _ = (r + 1) * cols := (Nat.succ_mul r cols).symm
    _ ≤ rows * cols := Nat.mul_le_mul_right cols hr

theorem transposed_lt (h : i < rows * cols) : transposed rows cols i < rows * cols :=
  Nat.mul_comm rows cols ▸ coords_lt (col_lt h) (row_lt h)

/-- A place is where the transpose of the transpose has its element. -/
theorem transposed_transposed (h : i < rows * cols) :
    transposed cols rows (transposed rows cols i) = i :=
  (transposed_coords (row_lt h)).trans (Nat.div_add_mod' i cols)

theorem transposed_inj (hi : i < rows * cols) (hj : j < rows * cols)
    (h : transposed rows cols i = transposed rows cols j) : i = j := by
  rw [← transposed_transposed hi, h, transposed_transposed hj]

/-- The last element stays. -/
theorem transposed_last (h : 0 < rows * cols) :
    transposed rows cols (rows * cols - 1) = rows * cols - 1 := by
  have hr := Nat.pos_of_mul_pos_right h
  have hc := Nat.pos_of_mul_pos_left h
  have last_eq {m n : Nat} (hm : 0 < m) (hn : 0 < n) : (m - 1) * n + (n - 1) = m * n - 1 := by
    have := Nat.le_mul_of_pos_left n hm
    rw [Nat.sub_one_mul]
    omega
  rw [← last_eq hr hc, transposed_coords (Nat.sub_one_lt_of_lt hc), last_eq hc hr, last_eq hr hc,
    Nat.mul_comm]

/-- Only the last element belongs at the last place. -/
theorem transposed_lt_last (h : i < rows * cols - 1) :
    transposed rows cols i < rows * cols - 1 := by
  have hi : i < rows * cols := by omega
  have hne : transposed rows cols i ≠ rows * cols - 1 := fun he => by
    have := transposed_inj hi (by omega) (he.trans (transposed_last (by omega)).symm)
    omega
  have := transposed_lt hi
  omega

/-- Between the first and the last place, the target of an element is its place in the transpose. -/
theorem target_eq (h : i < rows * cols - 1) :
    target rows (rows * cols - 1) i = transposed rows cols i := by
  have hsplit : i * rows = i / cols * (rows * cols - 1) + transposed rows cols i := by
    have hi : i / cols * cols + i % cols = i := Nat.div_add_mod' i cols
    have hpos : 0 < rows * cols := by omega
    calc i * rows = (i / cols * cols + i % cols) * rows := by rw [hi]
      _ = i / cols * (rows * cols - 1 + 1) + i % cols * rows := by
        rw [Nat.sub_add_cancel hpos]; ring
      _ = i / cols * (rows * cols - 1) + transposed rows cols i := by rw [transposed]; ring
  rw [target, hsplit, Nat.mul_add_mod_self_right, Nat.mod_eq_of_lt (transposed_lt_last h)]

/-- The targets of the inner places are inner places, each of them that of one place only. -/
structure Permutes (rows last : Nat) : Prop where
  inner {i : Nat} : Inner last i → Inner last (target rows last i)
  inj {i j : Nat} : Inner last i → Inner last j →
    target rows last i = target rows last j → i = j

theorem permutes (rows cols : Nat) : Permutes rows (rows * cols - 1) where
  inner := by
    rintro i ⟨hpos, hlt⟩
    rw [target_eq hlt]
    refine ⟨Nat.pos_of_ne_zero fun h0 => ?_, transposed_lt_last hlt⟩
    have hi : i < rows * cols := by omega
    have := transposed_transposed hi
    rw [h0, transposed, Nat.zero_mod, Nat.zero_mul, Nat.zero_div] at this
    omega
  inj := by
    rintro i j ⟨-, hi⟩ ⟨-, hj⟩ h
    rw [target_eq hi, target_eq hj] at h
    exact transposed_inj (by omega) (by omega) h

end Places

section Runs

variable {α : Type} {rows last start index : Nat} {before : Array α} {work after : Work α}
  {starts : List Nat}

/-- A cycle from `index` on, followed until its target is `start` again, however long it is. -/
inductive CycleRun (rows last start : Nat) : Nat → Work α → Work α → Prop
  | closed {index : Nat} {work : Work α} (hh : work.placed.Holds index)
      (hc : target rows last index = start) :
      CycleRun rows last start index work { work with placed := work.placed.insert index }
  | swapped {index : Nat} {work after : Work α} (hh : work.placed.Holds index)
      (hn : target rows last index ≠ start) (hs : start < work.buffer.size)
      (ht : target rows last index < work.buffer.size)
      (rest : CycleRun rows last start (target rows last index)
        ⟨work.buffer.swap start (target rows last index), work.placed.insert index⟩ after) :
      CycleRun rows last start index work after

/-- The cycles of some places, each of them followed unless it has been already. -/
inductive Sweep (rows last : Nat) : List Nat → Work α → Work α → Prop
  | done {work : Work α} : Sweep rows last [] work work
  | skipped {start : Nat} {starts : List Nat} {work after : Work α}
      (hh : work.placed.Holds start) (hc : work.placed.contains start = true)
      (rest : Sweep rows last starts work after) : Sweep rows last (start :: starts) work after
  | followed {start : Nat} {starts : List Nat} {work closed after : Work α}
      (hh : work.placed.Holds start) (hc : work.placed.contains start = false)
      (cycle : CycleRun rows last start start work closed)
      (rest : Sweep rows last starts closed after) : Sweep rows last (start :: starts) work after

/-- How many of the places before the last have not been placed. -/
def placesLeft (last : Nat) (work : Work α) : Nat :=
  ((Finset.range last).filter fun i => work.placed.contains i = false).card

/-- What holds throughout: the elements of the placed places are where they belong. -/
structure Placed (before : Array α) (rows last : Nat) (work : Work α) : Prop where
  size : work.buffer.size = before.size
  holds {i : Nat} : i < last → work.placed.Holds i
  inner {i : Nat} : work.placed.contains i = true → Inner last i
  moved {i : Nat} : work.placed.contains i = true →
    work.buffer[target rows last i]? = before[i]?

/-- A matrix between two cycles: the elements not yet placed are where they were. -/
structure Settled (before : Array α) (rows last : Nat) (work : Work α) : Prop
    extends Placed before rows last work where
  kept {i : Nat} : work.placed.contains i = false → work.buffer[i]? = before[i]?
  closed {i : Nat} : Inner last i →
    work.placed.contains (target rows last i) = work.placed.contains i

/-- A matrix along the cycle of `start`: the element of `index` waits at `start`, and the places
of the cycle before `index` have been placed. -/
structure Parked (before : Array α) (rows last start index : Nat) (work : Work α) : Prop
    extends Placed before rows last work where
  inner_start : Inner last start
  inner_index : Inner last index
  unplaced : work.placed.contains index = false
  parked : work.buffer[start]? = before[index]?
  kept {i : Nat} : work.placed.contains i = false → i ≠ start → i ≠ index →
    work.buffer[i]? = before[i]?
  chain {i : Nat} : Inner last i → (work.placed.contains i = true ↔
    target rows last i ≠ start ∧
      (target rows last i = index ∨ work.placed.contains (target rows last i) = true))
  came : index = start ∨ work.placed.contains start = true

theorem Settled.park (h : Settled before rows last work) (hi : Inner last start)
    (hu : work.placed.contains start = false) : Parked before rows last start start work where
  toPlaced := h.toPlaced
  inner_start := hi
  inner_index := hi
  unplaced := hu
  parked := h.kept hu
  kept hk _ _ := h.kept hk
  chain hi := by
    rw [← h.closed hi]
    refine ⟨fun ht => ⟨fun hs => ?_, .inr ht⟩, fun ⟨hs, ht⟩ => ht.resolve_left hs⟩
    rw [hs, hu] at ht
    cases ht
  came := .inl rfl

namespace Parked

theorem contains_insert (h : Parked before rows last start index work) (i : Nat) :
    (work.placed.insert index).contains i = true ↔ index = i ∨ work.placed.contains i = true := by
  rw [PlacedSet.contains_insert (h.holds h.inner_index.2), Bool.or_eq_true, decide_eq_true_iff]

theorem not_contains_insert (h : Parked before rows last start index work) {i : Nat}
    (hi : (work.placed.insert index).contains i = false) :
    index ≠ i ∧ work.placed.contains i = false := by
  rw [← Bool.not_eq_true, h.contains_insert, not_or, Bool.not_eq_true] at hi
  exact hi

theorem placesLeft_insert (h : Parked before rows last start index work) (buffer : Array α) :
    placesLeft last ⟨buffer, work.placed.insert index⟩ < placesLeft last work := by
  refine Finset.card_lt_card ⟨fun i hi => ?_, fun hsub => ?_⟩
  · obtain ⟨hlt, hi⟩ := Finset.mem_filter.1 hi
    exact Finset.mem_filter.2 ⟨hlt, (h.not_contains_insert hi).2⟩
  · have hmem : index ∈ (Finset.range last).filter fun i => work.placed.contains i = false :=
      Finset.mem_filter.2 ⟨Finset.mem_range.2 h.inner_index.2, h.unplaced⟩
    exact (h.not_contains_insert (Finset.mem_filter.1 (hsub hmem)).2).1 rfl

/-- The last step of a cycle: what waits at `start` is in its place. -/
theorem close (hp : Permutes rows last) (h : Parked before rows last start index work)
    (ht : target rows last index = start) :
    Settled before rows last { work with placed := work.placed.insert index } where
  size := h.size
  holds hi := (h.holds hi).insert index
  inner hi := by
    obtain rfl | hi := (h.contains_insert _).1 hi
    · exact h.inner_index
    · exact h.inner hi
  moved hi := by
    obtain rfl | hi := (h.contains_insert _).1 hi
    · rw [ht]
      exact h.parked
    · exact h.moved hi
  kept hi := by
    obtain ⟨hne, hi⟩ := h.not_contains_insert hi
    refine h.kept hi (fun hs => ?_) hne.symm
    obtain hc | hc := h.came
    · exact hne (hc.trans hs.symm)
    · rw [← hs, hi] at hc
      cases hc
  closed {i} hi := by
    rw [Bool.eq_iff_iff, h.contains_insert, h.contains_insert, h.chain hi]
    constructor
    · intro hi'
      by_cases hs : target rows last i = start
      · exact .inl (hp.inj h.inner_index hi (ht.trans hs.symm))
      · exact .inr ⟨hs, hi'.imp_left Eq.symm⟩
    · rintro (rfl | ⟨-, hi'⟩)
      · rw [ht]
        exact h.came
      · exact hi'.imp_left Eq.symm

/-- The target of `index` has not been reached before. -/
theorem target_fresh (h : Parked before rows last start index work)
    (hn : target rows last index ≠ start) :
    target rows last index ≠ index ∧
      work.placed.contains (target rows last index) = false := by
  have hu := h.unplaced
  rw [← Bool.not_eq_true, h.chain h.inner_index, not_and, not_or, Bool.not_eq_true] at hu
  exact hu hn

/-- One step along a cycle: what waits at `start` goes to its place, what was there waits next. -/
theorem swap (hp : Permutes rows last) (h : Parked before rows last start index work)
    (hn : target rows last index ≠ start) (hs : start < work.buffer.size)
    (ht : target rows last index < work.buffer.size) :
    Parked before rows last start (target rows last index)
      ⟨work.buffer.swap start (target rows last index), work.placed.insert index⟩ where
  size := (Array.size_swap ..).trans h.size
  holds hi := (h.holds hi).insert index
  inner hi := by
    obtain rfl | hi := (h.contains_insert _).1 hi
    · exact h.inner_index
    · exact h.inner hi
  moved {i} hi := by
    obtain rfl | hi := (h.contains_insert _).1 hi
    · rw [Array.getElem?_swap, if_pos rfl, ← Array.getElem?_eq_getElem]
      exact h.parked
    · have hns := ((h.chain (h.inner hi)).1 hi).1
      have hnt : target rows last index ≠ target rows last i := fun he => by
        rw [← hp.inj h.inner_index (h.inner hi) he, h.unplaced] at hi
        cases hi
      rw [Array.getElem?_swap, if_neg hnt, if_neg hns.symm]
      exact h.moved hi
  inner_start := h.inner_start
  inner_index := hp.inner h.inner_index
  unplaced := by
    obtain ⟨hne, hu⟩ := h.target_fresh hn
    rw [← Bool.not_eq_true, h.contains_insert, not_or, Bool.not_eq_true]
    exact ⟨hne.symm, hu⟩
  parked := by
    obtain ⟨hne, hu⟩ := h.target_fresh hn
    rw [Array.getElem?_swap, if_neg hn, if_pos rfl, ← Array.getElem?_eq_getElem]
    exact h.kept hu hn hne
  kept hi hs' ht' := by
    obtain ⟨hne, hi⟩ := h.not_contains_insert hi
    rw [Array.getElem?_swap, if_neg ht'.symm, if_neg hs'.symm]
    exact h.kept hi hs' hne.symm
  chain {i} hi := by
    rw [h.contains_insert, h.contains_insert, h.chain hi]
    constructor
    · rintro (rfl | ⟨hs', hi'⟩)
      · exact ⟨hn, .inl rfl⟩
      · exact ⟨hs', .inr (hi'.imp_left Eq.symm)⟩
    · rintro ⟨hs', hi' | hi'⟩
      · exact .inl (hp.inj h.inner_index hi hi'.symm)
      · exact .inr ⟨hs', hi'.imp_left Eq.symm⟩
  came := by
    rw [h.contains_insert]
    exact .inr h.came

/-- A cycle takes no more steps than there are places left, and is closed then. -/
theorem run (hp : Permutes rows last) (hsize : last < before.size) {fuel : Nat}
    (h : Parked before rows last start index work) (hf : placesLeft last work ≤ fuel) :
    CycleRun rows last start index work (follow rows last start fuel index work) ∧
      Settled before rows last (follow rows last start fuel index work) := by
  induction fuel generalizing index work with
  | zero => exact absurd (h.placesLeft_insert work.buffer) (by omega)
  | succ fuel ih =>
    have hh := h.holds h.inner_index.2
    have hin {i : Nat} (hi : Inner last i) : i < work.buffer.size :=
      h.size ▸ hi.2.trans hsize
    rw [follow]
    by_cases ht : target rows last index = start
    · rw [if_pos ht]
      exact ⟨.closed hh ht, h.close hp ht⟩
    · have hs := hin h.inner_start
      have hi := hin (hp.inner h.inner_index)
      rw [if_neg ht, Array.swapIfInBounds_def, dif_pos hs, dif_pos hi]
      have hf' := h.placesLeft_insert (work.buffer.swap start (target rows last index))
      obtain ⟨hrun, hsettled⟩ := ih (h.swap hp ht hs hi) (by omega)
      exact ⟨.swapped hh ht hs hi hrun, hsettled⟩

end Parked

theorem placesLeft_le (last : Nat) (work : Work α) : placesLeft last work ≤ last :=
  (Finset.card_filter_le ..).trans_eq (Finset.card_range last)

/-- The cycles of the places of a list, one after the other. -/
theorem Settled.sweep (hp : Permutes rows last) (hsize : last < before.size)
    (h : Settled before rows last work) (hs : ∀ start ∈ starts, Inner last start) :
    Sweep rows last starts work (starts.foldl (settle rows last) work) ∧
      Settled before rows last (starts.foldl (settle rows last) work) := by
  induction starts generalizing work with
  | nil => exact ⟨.done, h⟩
  | cons start starts ih =>
    obtain ⟨hi, hs⟩ := List.forall_mem_cons.1 hs
    have hh := h.holds hi.2
    rw [List.foldl_cons, settle]
    cases hc : work.placed.contains start with
    | true =>
      rw [if_pos rfl]
      exact (ih h hs).imp_left (.skipped hh hc)
    | false =>
      rw [if_neg Bool.false_ne_true]
      obtain ⟨hrun, hsettled⟩ := (h.park hi hc).run hp hsize (placesLeft_le last work)
      exact (ih hsettled hs).imp_left (.followed hh hc hrun)

/-- A cycle places the place it is at, and takes none out of the set. -/
theorem CycleRun.contains (h : CycleRun rows last start index work after) {i : Nat}
    (hi : index = i ∨ work.placed.contains i = true) : after.placed.contains i = true := by
  induction h with
  | closed hh =>
    rw [PlacedSet.contains_insert hh, Bool.or_eq_true, decide_eq_true_iff]
    exact hi
  | swapped hh _ _ _ _ ih =>
    refine ih (.inr ?_)
    rw [PlacedSet.contains_insert hh, Bool.or_eq_true, decide_eq_true_iff]
    exact hi

/-- After the cycles of some places, these have been placed. -/
theorem Sweep.contains (h : Sweep rows last starts work after) {i : Nat}
    (hi : i ∈ starts ∨ work.placed.contains i = true) : after.placed.contains i = true := by
  induction h with
  | done => exact hi.resolve_left List.not_mem_nil
  | skipped _ hc _ ih =>
    obtain hi | hi := hi
    · obtain rfl | hi := List.mem_cons.1 hi
      · exact ih (.inr hc)
      · exact ih (.inl hi)
    · exact ih (.inr hi)
  | followed _ _ cycle _ ih =>
    obtain hi | hi := hi
    · obtain rfl | hi := List.mem_cons.1 hi
      · exact ih (.inr (cycle.contains (.inl rfl)))
      · exact ih (.inl hi)
    · exact ih (.inr (cycle.contains (.inr hi)))

end Runs

end Transpose

end RadarHost
