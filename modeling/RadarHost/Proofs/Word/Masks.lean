import Mathlib.Algebra.Order.Ring.Nat
import RadarHost.Word.Mask

/-!
# The bits of a mask

A power of two less one has all the bits below it set (`getLsbD_ones`). A mask is such a number
moved up, so that it has the bits of its range and no other (`exists_mask`), and there are as many
of them as it is wide (`countOnes_of_range`). Keeping the lowest bits of a word is a remainder
(`toNat_keepLow`).

`maskStepwise` and `keepLowStepwise` take the same steps with the range of each of them checked:
no shift goes by the width or more, no difference is below zero, and a sum of two words of 32 bits
that has more bits is found out. They have the outcome that `mask` and `keepLow` give
(`maskStepwise_eq`, `keepLowStepwise_eq`).
-/

namespace RadarHost

namespace Word

variable {w width offset bits : Nat}

/-! ## Ones -/

theorem toNat_one_shiftUp (h : bits < w) : (shiftUp 1#w bits h).toNat = 2 ^ bits := by
  have hlt : 2 ^ bits < 2 ^ w := Nat.pow_lt_pow_right (by decide) h
  rw [shiftUp, ← BitVec.twoPow_eq, BitVec.toNat_twoPow, Nat.mod_eq_of_lt hlt]

theorem one_le_shiftUp (h : bits < w) : 1#w ≤ shiftUp 1#w bits h := by
  rw [BitVec.le_def, toNat_one_shiftUp h, BitVec.toNat_one (Nat.zero_lt_of_lt h)]
  exact Nat.one_le_two_pow

theorem toNat_ones (h : bits < w) : (shiftUp 1#w bits h - 1#w).toNat = 2 ^ bits - 1 := by
  rw [BitVec.toNat_sub_of_le (one_le_shiftUp h), toNat_one_shiftUp h,
    BitVec.toNat_one (Nat.zero_lt_of_lt h)]

theorem getLsbD_ones (h : bits < w) (i : Nat) :
    (shiftUp 1#w bits h - 1#w).getLsbD i = decide (i < bits) := by
  rw [← BitVec.testBit_toNat, toNat_ones h, Nat.testBit_two_pow_sub_one]

/-- The lowest bits of a word are a remainder. -/
theorem toNat_keepLow (v : BitVec w) (bits : Nat) :
    (keepLow v bits).toNat = v.toNat % 2 ^ min bits w := by
  rw [keepLow]
  split
  · rename_i h
    rw [BitVec.toNat_and, toNat_ones h, Nat.and_two_pow_sub_one_eq_mod, Nat.min_eq_left h.le]
  · rename_i h
    rw [Nat.min_eq_right (Nat.le_of_not_lt h), Nat.mod_eq_of_lt v.isLt]

/-! ## Masks -/

/-- A mask whose range ends within the word has the bits of the range. -/
theorem exists_mask (h : width + offset ≤ w) :
    ∃ m, mask w width offset = .ok m ∧
      ∀ i, m.getLsbD i = decide (offset ≤ i ∧ i < offset + width) := by
  unfold mask
  rw [dif_pos h]
  by_cases hempty : width = 0
  · refine ⟨0#w, dif_pos hempty, fun i => ?_⟩
    rw [BitVec.getLsbD_zero, eq_comm, decide_eq_false_iff_not]
    omega
  by_cases hfull : width = w
  · refine ⟨BitVec.allOnes w, by rw [dif_neg hempty, dif_pos hfull], fun i => ?_⟩
    rw [BitVec.getLsbD_allOnes, decide_eq_decide]
    omega
  refine ⟨_, by rw [dif_neg hempty, dif_neg hfull], fun i => ?_⟩
  rw [shiftUp, BitVec.getLsbD_shiftLeft, getLsbD_ones, Bool.eq_iff_iff]
  simp only [Bool.and_eq_true, Bool.not_eq_true', decide_eq_true_eq, decide_eq_false_iff_not]
  omega

/-- A word that has the bits of a range set has as many bits set as the range is wide. -/
theorem countOnes_of_range {m : BitVec w} (h : width + offset ≤ w)
    (hm : ∀ i, m.getLsbD i = decide (offset ≤ i ∧ i < offset + width)) : countOnes m = width := by
  have hrange : List.range w = List.range' 0 offset ++ List.range' offset width ++
      List.range' (offset + width) (w - (offset + width)) := by
    rw [List.range_eq_range', List.append_assoc, List.range'_append_1,
      show List.range' offset _ = List.range' (0 + offset) _ from by rw [Nat.zero_add],
      List.range'_append_1]
    congr 1
    omega
  have houtside (places : List Nat) (hp : ∀ i ∈ places, i < offset ∨ offset + width ≤ i) :
      places.countP m.getLsbD = 0 := by
    refine List.countP_eq_zero.2 fun i hi => ?_
    have := hp i hi
    rw [hm, decide_eq_true_eq]
    omega
  have hwithin : (List.range' offset width).countP m.getLsbD = width := by
    rw [List.countP_eq_length.2, List.length_range']
    intro i hi
    rw [hm, decide_eq_true_eq]
    exact List.mem_range'_1.1 hi
  have hbelow := houtside (List.range' 0 offset) fun i hi => by
    have := List.mem_range'_1.1 hi
    omega
  have habove := houtside (List.range' (offset + width) (w - (offset + width))) fun i hi =>
    .inr (List.mem_range'_1.1 hi).1
  rw [countOnes, hrange, List.countP_append, List.countP_append, hbelow, hwithin, habove,
    Nat.zero_add, Nat.add_zero]

/-- Keeping the lowest bits of a word is cutting it with a mask of them. -/
theorem keepLow_eq_and (v : BitVec w) (bits : Nat) :
    ∃ low, mask w (min bits w) 0 = .ok low ∧ keepLow v bits = v &&& low := by
  obtain ⟨low, hmask, hlow⟩ := exists_mask (show min bits w + 0 ≤ w from Nat.min_le_right bits w)
  refine ⟨low, hmask, BitVec.eq_of_getLsbD_eq fun i hi => ?_⟩
  rw [BitVec.getLsbD_and, hlow, keepLow]
  split
  · rename_i h
    rw [BitVec.getLsbD_and, getLsbD_ones]
    congr 1
    rw [decide_eq_decide]
    omega
  · rename_i h
    rw [decide_eq_true (by omega), Bool.and_true]

/-! ## Step by step -/

/-- A shift to the left; it has no outcome where the amount is not below the width. -/
def shiftUp? (v : BitVec w) (amount : UInt32) : Option (BitVec w) :=
  if amount.toNat < w then some (v <<< amount.toNat) else none

/-- A difference; it has no outcome where it is below zero. -/
def minus? (a b : BitVec w) : Option (BitVec w) := if b ≤ a then some (a - b) else none

/-- A sum of two words, if it fits into one; one that does not is refused, and no failure. -/
def plus? (a b : UInt32) : Option UInt32 :=
  if a.toNat + b.toNat < UInt32.size then some (a + b) else none

/-- A power of two less one. -/
def ones? (w : Nat) (bits : UInt32) : Option (BitVec w) := do minus? (← shiftUp? 1#w bits) 1#w

/-- The steps by which a mask is made. -/
def maskStepwise (w : Nat) (width offset : UInt32) : Option (Except RangeError (BitVec w)) :=
  let refusal := .error ⟨width.toNat, offset.toNat, w⟩
  match plus? width offset with
  | none => return refusal
  | some stop =>
    if w < stop.toNat then return refusal
    else if width = 0 then return .ok 0#w
    else if width.toNat = w then return .ok (BitVec.allOnes w)
    else return .ok (← shiftUp? (← ones? w width) offset)

/-- The steps by which the lowest bits of a word are kept. -/
def keepLowStepwise (v : BitVec w) (bits : UInt32) : Option (BitVec w) := do
  if w ≤ bits.toNat then return v else return v &&& (← ones? w bits)

theorem shiftUp?_of_lt {v : BitVec w} {amount : UInt32} (h : amount.toNat < w) :
    shiftUp? v amount = some (shiftUp v amount.toNat h) :=
  if_pos h

theorem ones?_of_lt {bits : UInt32} (h : bits.toNat < w) :
    ones? w bits = some (shiftUp 1#w bits.toNat h - 1#w) := by
  rw [ones?, shiftUp?_of_lt h]
  exact if_pos (one_le_shiftUp h)

theorem plus?_of_lt {a b : UInt32} (h : a.toNat + b.toNat < UInt32.size) :
    ∃ sum, plus? a b = some sum ∧ sum.toNat = a.toNat + b.toNat :=
  ⟨a + b, if_pos h, by rw [UInt32.toNat_add, Nat.mod_eq_of_lt h]⟩

/-- The steps to a mask are all in range. -/
theorem maskStepwise_eq (hw : w < UInt32.size) (width offset : UInt32) :
    maskStepwise w width offset = some (mask w width.toNat offset.toNat) := by
  unfold maskStepwise
  by_cases hfits : width.toNat + offset.toNat ≤ w
  · obtain ⟨stop, hstop, hsum⟩ := plus?_of_lt (Nat.lt_of_le_of_lt hfits hw)
    simp only [hstop]
    rw [hsum, if_neg (Nat.not_lt_of_le hfits), mask, dif_pos hfits]
    by_cases hempty : width = 0
    · have hzero : width.toNat = 0 := congrArg UInt32.toNat hempty
      rw [if_pos hempty, dif_pos hzero]
      rfl
    have hne : width.toNat ≠ 0 := fun h => hempty (UInt32.toNat_inj.1 h)
    rw [if_neg hempty, dif_neg hne]
    by_cases hfull : width.toNat = w
    · rw [if_pos hfull, dif_pos hfull]
      rfl
    rw [if_neg hfull, dif_neg hfull, ones?_of_lt (by omega), Option.bind_eq_bind, Option.bind_some,
      shiftUp?_of_lt (by omega)]
    rfl
  · have herror : mask w width.toNat offset.toNat = .error ⟨width.toNat, offset.toNat, w⟩ :=
      dif_neg hfits
    rw [herror]
    by_cases hsum : width.toNat + offset.toNat < UInt32.size
    · obtain ⟨stop, hstop, hsum⟩ := plus?_of_lt hsum
      simp only [hstop]
      rw [hsum, if_pos (Nat.lt_of_not_le hfits)]
      rfl
    · rw [show plus? width offset = none from if_neg hsum]
      rfl

theorem keepLowStepwise_eq (v : BitVec w) (bits : UInt32) :
    keepLowStepwise v bits = some (keepLow v bits.toNat) := by
  unfold keepLowStepwise keepLow
  by_cases h : bits.toNat < w
  · rw [if_neg (Nat.not_le_of_lt h), dif_pos h, ones?_of_lt h]
    rfl
  · rw [if_pos (Nat.le_of_not_lt h), dif_neg h]
    rfl

/-- Masks are exact for words of every width. A mask is refused just when its range ends past the
word, also where the sum of its width and offset has more than 32 bits; else it has the bits of its
range set, as many as it is wide. Keeping the lowest bits of a word is cutting it with their mask,
and the remainder by a power of two. No step on the way shifts by the width or more, or takes away
more than there is. -/
theorem masks_exact (hw : w < UInt32.size) (v : BitVec w) (width offset bits : UInt32) :
    maskStepwise w width offset = some (mask w width.toNat offset.toNat) ∧
    keepLowStepwise v bits = some (keepLow v bits.toNat) ∧
    (mask w width.toNat offset.toNat = .error ⟨width.toNat, offset.toNat, w⟩ ↔
      w < width.toNat + offset.toNat) ∧
    (width.toNat + offset.toNat ≤ w → ∃ m, mask w width.toNat offset.toNat = .ok m ∧
      (∀ i, m.getLsbD i = decide (offset.toNat ≤ i ∧ i < offset.toNat + width.toNat)) ∧
      countOnes m = width.toNat) ∧
    (∃ low, mask w (min bits.toNat w) 0 = .ok low ∧ keepLow v bits.toNat = v &&& low) ∧
    (keepLow v bits.toNat).toNat = v.toNat % 2 ^ bits.toNat := by
  refine ⟨maskStepwise_eq hw width offset, keepLowStepwise_eq v bits, ?_, fun h => ?_,
    keepLow_eq_and v bits.toNat, ?_⟩
  · rw [mask_eq_error_iff]
    exact and_iff_left rfl
  · obtain ⟨m, hmask, hbits⟩ := exists_mask h
    exact ⟨m, hmask, hbits, countOnes_of_range h hbits⟩
  · rw [toNat_keepLow]
    rcases Nat.le_total bits.toNat w with hle | hle
    · rw [Nat.min_eq_left hle]
    · have hv : v.toNat < 2 ^ bits.toNat := v.isLt.trans_le (Nat.pow_le_pow_right (by decide) hle)
      rw [Nat.min_eq_right hle, Nat.mod_eq_of_lt v.isLt, Nat.mod_eq_of_lt hv]

/-- Words of 128 bits: a mask of the highest four, one whose width and offset add up to nothing in
32 bits, and all bits but the highest. -/
theorem masks_exact_widest :
    128 < UInt32.size ∧ (0xFFFFFFFF : UInt32) + 1 = 0 ∧
    (∃ m, mask 128 4 124 = .ok m ∧ countOnes m = 4 ∧
      ∀ i, m.getLsbD i = decide (124 ≤ i ∧ i < 128)) ∧
    maskStepwise 128 0xFFFFFFFF 1 = some (.error ⟨0xFFFFFFFF, 1, 128⟩) ∧
    (keepLow (BitVec.allOnes 128) 127).toNat = (BitVec.allOnes 128).toNat % 2 ^ 127 := by
  have hw : 128 < UInt32.size := by decide
  obtain ⟨-, -, -, hmask, -, hlow⟩ := masks_exact hw (BitVec.allOnes 128) 4 124 127
  obtain ⟨hsteps, -, herror, -⟩ := masks_exact hw 0#128 0xFFFFFFFF 1 0
  obtain ⟨m, hm, hbits, hcount⟩ := hmask (by decide)
  refine ⟨hw, by decide, ⟨m, hm, hcount, hbits⟩, ?_, hlow⟩
  rw [hsteps, herror.2 (by decide)]
  rfl

end Word

end RadarHost
