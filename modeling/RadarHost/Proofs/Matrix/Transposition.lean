import RadarHost.Proofs.Matrix.Cycles

/-!
# Transposition in place and into another array

`Transposes` says that an array holds the transpose of another; there is only one such array
(`Transposes.unique`), and the relation is its own converse with the shape turned round
(`Transposes.symm`). `transposes_inPlace` obtains it from the sweep of the cycles,
`transposes_copy` from the places written so far. `inPlace_permutes_like_copy` has both together
with the shapes that they refuse.
-/

namespace RadarHost

namespace Transpose

variable {α : Type} {rows cols : Nat} {before after buffer input output : Array α}

/-- The run of a transposition in place, every access within the array: how it ends, and what the
array holds then. -/
inductive InPlaceRun (rows cols : Nat) (buffer : Array α) :
    Except ShapeError Unit → Array α → Prop
  | refused {e : ShapeError} (h : checkShape buffer.size rows cols = .error e) :
      InPlaceRun rows cols buffer (.error e) buffer
  | vector (h : checkShape buffer.size rows cols = .ok ()) (hv : rows ≤ 1 ∨ cols ≤ 1) :
      InPlaceRun rows cols buffer (.ok ()) buffer
  | cycles {work : Work α} (h : checkShape buffer.size rows cols = .ok ())
      (hv : ¬ (rows ≤ 1 ∨ cols ≤ 1)) (hl : 0 < buffer.size - 1)
      (sweep : Sweep rows (buffer.size - 1) (List.range' 1 (buffer.size - 1 - 1))
        ⟨buffer, .ofLen buffer.size⟩ work) :
      InPlaceRun rows cols buffer (.ok ()) work.buffer

/-- The elements of some places of `input`, written one after the other where its transpose has
them, every access within the arrays. -/
inductive Writes (rows cols : Nat) (input : Array α) : List Nat → Array α → Array α → Prop
  | done {output : Array α} : Writes rows cols input [] output output
  | write {index : Nat} {indices : List Nat} {output after : Array α} (hi : index < input.size)
      (ho : transposed rows cols index < output.size)
      (rest : Writes rows cols input indices
        (output.set (transposed rows cols index) input[index]) after) :
      Writes rows cols input (index :: indices) output after

/-- The run of a transposition into another array: how it ends, and what that array holds then. -/
inductive CopyRun (rows cols : Nat) (input output : Array α) :
    Except ShapeError Unit → Array α → Prop
  | refused {e : ShapeError} (h : checkShape input.size rows cols = .error e) :
      CopyRun rows cols input output (.error e) output
  | misfit {e : ShapeError} (hi : checkShape input.size rows cols = .ok ())
      (ho : checkShape output.size rows cols = .error e) :
      CopyRun rows cols input output (.error e) output
  | copied {after : Array α} (hi : checkShape input.size rows cols = .ok ())
      (ho : checkShape output.size rows cols = .ok ())
      (writes : Writes rows cols input (List.range input.size) output after) :
      CopyRun rows cols input output (.ok ()) after

/-- `after` is `before`, a matrix of `rows` by `cols` elements, transposed. -/
structure Transposes (rows cols : Nat) (before after : Array α) : Prop where
  size_before : before.size = rows * cols
  size_after : after.size = rows * cols
  moved (r c : Nat) : r < rows → c < cols →
    ∃ value, before[r * cols + c]? = some value ∧ after[c * rows + r]? = some value

theorem checkShape_ok {len : Nat} (h : len = rows * cols) :
    checkShape len rows cols = .ok () := if_pos h.symm

theorem checkShape_error {len : Nat} (h : len ≠ rows * cols) :
    checkShape len rows cols = .error ⟨len, rows, cols⟩ := if_neg h.symm

namespace Transposes

theorem of_places (hb : before.size = rows * cols) (ha : after.size = rows * cols)
    (h : ∀ i < rows * cols, after[transposed rows cols i]? = before[i]?) :
    Transposes rows cols before after where
  size_before := hb
  size_after := ha
  moved r c hr hc := by
    have hi := coords_lt hr hc
    refine ⟨before[r * cols + c], Array.getElem?_eq_getElem (hb ▸ hi), ?_⟩
    rw [← transposed_coords hc, h _ hi]
    exact Array.getElem?_eq_getElem (hb ▸ hi)

theorem place (h : Transposes rows cols before after) {i : Nat} (hi : i < rows * cols) :
    after[transposed rows cols i]? = before[i]? := by
  obtain ⟨value, hbefore, hafter⟩ := h.moved _ _ (row_lt hi) (col_lt hi)
  rw [Nat.div_add_mod'] at hbefore
  exact hafter.trans hbefore.symm

theorem symm (h : Transposes rows cols before after) : Transposes cols rows after before where
  size_before := h.size_after.trans (Nat.mul_comm ..)
  size_after := h.size_before.trans (Nat.mul_comm ..)
  moved c r hc hr := by
    obtain ⟨value, hbefore, hafter⟩ := h.moved r c hr hc
    exact ⟨value, hafter, hbefore⟩

theorem unique (h : Transposes rows cols before after)
    (h' : Transposes rows cols before output) : after = output := by
  refine Array.ext_getElem? fun i => ?_
  by_cases hi : i < cols * rows
  · rw [← h.symm.place hi, ← h'.symm.place hi]
  · have hlen := Nat.mul_comm rows cols
    rw [Array.getElem?_eq_none (by have := h.size_after; omega),
      Array.getElem?_eq_none (by have := h'.size_after; omega)]

end Transposes

/-- A matrix of one row or one column is its own transpose. -/
theorem transposes_vector (h : buffer.size = rows * cols) (hv : rows ≤ 1 ∨ cols ≤ 1) :
    Transposes rows cols buffer buffer := by
  refine .of_places h h fun i hi => ?_
  suffices hfix : transposed rows cols i = i by rw [hfix]
  have hr := row_lt hi
  have hc := col_lt hi
  obtain hv | hv := hv
  · have hrow : i / cols = 0 := Nat.lt_one_iff.1 (hr.trans_le hv)
    have hi := Nat.div_add_mod' i cols
    rw [hrow, Nat.zero_mul, Nat.zero_add] at hi
    rw [transposed, hrow, hi, show rows = 1 by omega, Nat.mul_one, Nat.add_zero]
  · rw [transposed, show cols = 1 by omega, Nat.mod_one, Nat.div_one, Nat.zero_mul, Nat.zero_add]

/-- A matrix is settled before the first cycle. -/
theorem settled_start (buffer : Array α) (rows : Nat) :
    Settled buffer rows (buffer.size - 1) ⟨buffer, .ofLen buffer.size⟩ where
  size := rfl
  holds hi := PlacedSet.holds_ofLen (by omega)
  inner hi := by rw [PlacedSet.contains_ofLen] at hi; cases hi
  moved hi := by rw [PlacedSet.contains_ofLen] at hi; cases hi
  kept _ := rfl
  closed _ := by rw [PlacedSet.contains_ofLen, PlacedSet.contains_ofLen]

/-- Once all inner places have been placed, the matrix has been transposed. -/
theorem Settled.transposes {work : Work α} (h : Settled before rows (rows * cols - 1) work)
    (hb : before.size = rows * cols)
    (hall : ∀ i, Inner (rows * cols - 1) i → work.placed.contains i = true) :
    Transposes rows cols before work.buffer := by
  refine .of_places hb (h.size.trans hb) fun i hi => ?_
  by_cases hin : Inner (rows * cols - 1) i
  · rw [← target_eq hin.2]
    exact h.moved (hall i hin)
  · have hfix : transposed rows cols i = i := by
      obtain rfl | rfl : i = 0 ∨ i = rows * cols - 1 := by
        rw [Inner] at hin
        omega
      · rw [transposed, Nat.zero_mod, Nat.zero_mul, Nat.zero_div]
      · exact transposed_last (by omega)
    rw [hfix]
    exact h.kept (Bool.eq_false_iff.2 fun hi => hin (h.inner hi))

/-- The transposition in place does what its run does, and the run transposes. -/
theorem transposes_inPlace (h : buffer.size = rows * cols) :
    ∃ after, InPlaceRun rows cols buffer (.ok ()) after ∧
      inPlace buffer rows cols = .ok after ∧ Transposes rows cols buffer after := by
  have hshape := checkShape_ok h
  rw [inPlace, hshape]
  by_cases hv : rows ≤ 1 ∨ cols ≤ 1
  · exact ⟨buffer, .vector hshape hv, if_pos hv, transposes_vector h hv⟩
  · have hsize : 2 * 2 ≤ rows * cols := Nat.mul_le_mul (by omega) (by omega)
    have hp : Permutes rows (buffer.size - 1) := h ▸ permutes rows cols
    have hstarts : ∀ start ∈ List.range' 1 (buffer.size - 1 - 1), Inner (buffer.size - 1) start :=
      fun start hs => by
        obtain ⟨hpos, hlt⟩ := List.mem_range'_1.1 hs
        exact ⟨hpos, by omega⟩
    obtain ⟨hsweep, hsettled⟩ := (settled_start buffer rows).sweep hp (by omega) hstarts
    refine ⟨_, .cycles hshape hv (by omega) hsweep, if_neg hv, ?_⟩
    refine Settled.transposes (h ▸ hsettled) h fun i ⟨hpos, hlt⟩ => hsweep.contains (.inl ?_)
    exact List.mem_range'_1.2 ⟨hpos, by omega⟩

/-- Of places that are all different, each keeps what is written to it. -/
theorem Writes.places {indices : List Nat} (hi : input.size = rows * cols)
    (ho : output.size = rows * cols) (hlt : ∀ i ∈ indices, i < rows * cols)
    (hnd : indices.Nodup) :
    Writes rows cols input indices output (indices.foldl (place input rows cols) output) ∧
      (indices.foldl (place input rows cols) output).size = rows * cols ∧
      ∀ i < rows * cols, (indices.foldl (place input rows cols) output)[transposed rows cols i]? =
        if i ∈ indices then input[i]? else output[transposed rows cols i]? := by
  induction indices generalizing output with
  | nil => exact ⟨.done, ho, fun i _ => (if_neg List.not_mem_nil).symm⟩
  | cons index indices ih =>
    obtain ⟨hindex, hlt⟩ := List.forall_mem_cons.1 hlt
    obtain ⟨hfresh, hnd⟩ := List.nodup_cons.1 hnd
    have htarget := transposed_lt hindex
    have hplace : place input rows cols output index =
        output.set (transposed rows cols index) input[index] (ho ▸ htarget) := by
      rw [place, Array.getElem?_eq_getElem (hi ▸ hindex)]
      exact dif_pos (ho ▸ htarget)
    have hkept : (place input rows cols output index).size = rows * cols := by
      rw [hplace, Array.size_set, ho]
    obtain ⟨hwrites, hsize, hread⟩ := ih hkept hlt hnd
    rw [List.foldl_cons]
    refine ⟨.write (hi ▸ hindex) (ho ▸ htarget) (hplace ▸ hwrites), hsize, fun i hi' => ?_⟩
    rw [hread i hi', hplace, Array.getElem?_set]
    by_cases hmem : i ∈ indices
    · rw [if_pos hmem, if_pos (List.mem_cons_of_mem _ hmem)]
    · rw [if_neg hmem]
      by_cases heq : i = index
      · subst heq
        rw [if_pos rfl, if_pos List.mem_cons_self, ← Array.getElem?_eq_getElem]
      · have hne : transposed rows cols index ≠ transposed rows cols i :=
          fun he => heq (transposed_inj hindex hi' he).symm
        rw [if_neg hne, if_neg (List.mem_cons.not.2 (not_or.2 ⟨heq, hmem⟩))]

/-- The transposition into another array does what its run does, and the run transposes. -/
theorem transposes_copy (hi : input.size = rows * cols) (ho : output.size = rows * cols) :
    ∃ after, CopyRun rows cols input output (.ok ()) after ∧
      copy input output rows cols = .ok after ∧ Transposes rows cols input after := by
  obtain ⟨hwrites, hsize, hread⟩ := Writes.places hi ho
    (fun i h => hi ▸ List.mem_range.1 h) (@List.nodup_range input.size)
  refine ⟨_, .copied (checkShape_ok hi) (checkShape_ok ho) hwrites, ?_, ?_⟩
  · rw [copy, checkShape_ok hi, checkShape_ok ho]
    rfl
  · refine .of_places hi hsize fun i h => ?_
    rw [hread i h, if_pos (List.mem_range.2 (hi ▸ h))]

/-- Transposing in place permutes like transposing into another array. Either refuses exactly the
arrays that do not have `rows * cols` elements, and leaves them as they are; otherwise the element of
row `r` and column `c` goes to row `c` and column `r`, and transposing back restores the array. -/
theorem inPlace_permutes_like_copy (buffer : Array α) (rows cols : Nat) :
    (∃ outcome after, InPlaceRun rows cols buffer outcome after ∧
      inPlace buffer rows cols = outcome.map (fun _ => after) ∧
      (buffer.size = rows * cols ∧ outcome = .ok () ∧ Transposes rows cols buffer after ∧
          inPlace after cols rows = .ok buffer ∨
        buffer.size ≠ rows * cols ∧ outcome = .error ⟨buffer.size, rows, cols⟩ ∧
          after = buffer)) ∧
    ∀ output : Array α, ∃ outcome after, CopyRun rows cols buffer output outcome after ∧
      copy buffer output rows cols = outcome.map (fun _ => after) ∧
      (buffer.size = rows * cols ∧ output.size = rows * cols ∧ outcome = .ok () ∧
          Transposes rows cols buffer after ∧ inPlace buffer rows cols = .ok after ∨
        buffer.size ≠ rows * cols ∧ outcome = .error ⟨buffer.size, rows, cols⟩ ∧
          after = output ∨
        buffer.size = rows * cols ∧ output.size ≠ rows * cols ∧
          outcome = .error ⟨output.size, rows, cols⟩ ∧ after = output) := by
  by_cases h : buffer.size = rows * cols
  · obtain ⟨after, hrun, hval, ht⟩ := transposes_inPlace h
    constructor
    · obtain ⟨back, -, hback, ht'⟩ := transposes_inPlace ht.symm.size_before
      refine ⟨.ok (), after, hrun, hval, .inl ⟨h, rfl, ht, ?_⟩⟩
      rw [hback, ht'.unique ht.symm]
    · intro output
      by_cases ho : output.size = rows * cols
      · obtain ⟨written, hrun', hval', ht'⟩ := transposes_copy h ho
        refine ⟨.ok (), written, hrun', hval', .inl ⟨h, ho, rfl, ht', ?_⟩⟩
        rw [hval, ht.unique ht']
      · refine ⟨_, output, .misfit (checkShape_ok h) (checkShape_error ho), ?_,
          .inr (.inr ⟨h, ho, rfl, rfl⟩)⟩
        rw [copy, checkShape_ok h, checkShape_error ho]
        rfl
  · have hshape := checkShape_error h
    refine ⟨⟨_, buffer, .refused hshape, ?_, .inr ⟨h, rfl, rfl⟩⟩,
      fun output => ⟨_, output, .refused hshape, ?_, .inr (.inl ⟨h, rfl, rfl⟩)⟩⟩
    · rw [inPlace, hshape]
      rfl
    · rw [copy, hshape]
      rfl

end Transpose

end RadarHost
