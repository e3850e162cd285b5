import Mathlib.Data.List.Basic
import Mathlib.Data.Nat.Bitwise
import Mathlib.Logic.Function.Iterate
import Mathlib.Tactic.NormNum
import RadarHost.Packet.Checksum
import RadarHost.Proofs.Checksum.Bits

/-!
# What the checksum tells apart

The register of the checksum is linear in what it has taken in, so what damage does to it is a
matter of the damage alone: it adds the `residue` that the turned bits leave in an empty register
(`foldl_heard`). A shift can be undone (`eq_zero_of_shift`), so zeros before and after make no
difference to whether anything is left, and something is left by

* an odd number of bits, since a shift keeps the parity of the register (`residue_ne_zero_of_odd`);
* bits within a register's length of each other, all of which are in it at once
  (`residue_ne_zero_of_burst`);
* two bits, since a register with one bit set is not met again in as many shifts as a packet has
  bits (`iterate_shift_ne`), and so by any up to three (`residue_ne_zero_of_few`).
-/

namespace RadarHost

namespace Checksum

/-! ## Shifts -/

theorem toBitVec_shift (r : UInt16) :
    (shift r).toBitVec =
      (r.toBitVec <<< 1) ^^^ if r.toBitVec.msb then polynomial.toBitVec else 0#16 := by
  have htop : (r &&& 0x8000 = 0) ↔ r.toBitVec.msb = false := by
    rw [← UInt16.toBitVec_inj, UInt16.toBitVec_and,
      show (0x8000 : UInt16).toBitVec = BitVec.twoPow 16 15 from rfl, BitVec.and_twoPow,
      BitVec.msb_eq_getLsbD_last]
    cases r.toBitVec.getLsbD 15 <;> decide
  unfold shift
  cases hm : r.toBitVec.msb with
  | false =>
    rw [if_pos (htop.2 hm)]
    simp
  | true =>
    rw [if_neg (fun h => by simp [htop.1 h] at hm)]
    simp

theorem shift_zero : shift 0 = 0 := by decide

theorem shift_xor (r s : UInt16) : shift (r ^^^ s) = shift r ^^^ shift s := by
  rw [← UInt16.toBitVec_inj]
  simp only [UInt16.toBitVec_xor, toBitVec_shift, BitVec.shiftLeft_xor_distrib, BitVec.msb_xor]
  -- the polynomial is added for each register whose first bit is set, and twice is not at all
  cases r.toBitVec.msb <;> cases s.toBitVec.msb <;> ext i <;> simp <;> grind

/-- What a shift makes of the number in the register. -/
def shifted (n : Nat) : Nat := (2 * n % 0x10000) ^^^ (n / 0x8000 * 0x1021)

theorem toNat_shift (r : UInt16) : (shift r).toNat = shifted r.toNat := by
  have hlt : r.toNat < 65536 := r.toNat_lt
  have hp : polynomial.toBitVec.toNat = 0x1021 := rfl
  unfold shifted
  rw [← UInt16.toNat_toBitVec, toBitVec_shift, BitVec.toNat_xor, BitVec.toNat_shiftLeft,
    Nat.shiftLeft_eq, BitVec.msb_eq_decide, UInt16.toNat_toBitVec, Nat.mul_comm _ (2 ^ 1)]
  rcases Nat.lt_or_ge r.toNat 0x8000 with h | h
  · have hm : decide (2 ^ (16 - 1) ≤ r.toNat) = false := by rw [decide_eq_false_iff_not]; omega
    rw [hm, if_neg Bool.false_ne_true, Nat.div_eq_of_lt h, Nat.zero_mul]
    rfl
  · have hm : decide (2 ^ (16 - 1) ≤ r.toNat) = true := by rw [decide_eq_true_iff]; omega
    rw [hm, if_pos rfl, hp, show r.toNat / 0x8000 = 1 by omega, Nat.one_mul]

theorem shift_ofNat {n : Nat} (h : n < 0x8000) :
    shift (UInt16.ofNat n) = UInt16.ofNat (2 * n) := by
  have hn : (UInt16.ofNat n).toNat = n := UInt16.toNat_ofNat_of_lt' (by rw [UInt16.size]; omega)
  have hn' : (UInt16.ofNat (2 * n)).toNat = 2 * n :=
    UInt16.toNat_ofNat_of_lt' (by rw [UInt16.size]; omega)
  rw [← UInt16.toNat_inj, toNat_shift, hn, hn', shifted, Nat.div_eq_of_lt h, Nat.zero_mul,
    Nat.xor_zero, Nat.mod_eq_of_lt (by omega)]

/-- The last bit of the polynomial is set, so that a shift loses nothing. -/
theorem eq_zero_of_shift {r : UInt16} (h : shift r = 0) : r = 0 := by
  have hv : (shift r).toBitVec = 0#16 := congrArg UInt16.toBitVec h
  have hmsb : r.toBitVec.msb = false := by
    cases hm : r.toBitVec.msb with
    | false => rfl
    | true =>
      have h0 := congrArg (·.getLsbD 0) hv
      rw [toBitVec_shift, hm] at h0
      simp [polynomial] at h0
  have hr : r.toNat < 0x8000 := by
    rw [BitVec.msb_eq_decide, decide_eq_false_iff_not] at hmsb
    exact not_le.1 hmsb
  have hn : shifted r.toNat = 0 := by rw [← toNat_shift, h]; rfl
  rw [shifted, Nat.div_eq_of_lt hr, Nat.zero_mul, Nat.xor_zero, Nat.mod_eq_of_lt (by omega)] at hn
  exact UInt16.toNat_inj.1 (show r.toNat = 0 by omega)

theorem iterate_shift_xor (n : Nat) (r s : UInt16) :
    shift^[n] (r ^^^ s) = shift^[n] r ^^^ shift^[n] s := by
  induction n generalizing r s with
  | zero => rfl
  | succ n ih => rw [Function.iterate_succ_apply, shift_xor, ih]; rfl

theorem iterate_shift_zero (n : Nat) : shift^[n] 0 = 0 := Function.iterate_fixed shift_zero n

theorem eq_zero_of_iterate_shift {n : Nat} {r : UInt16} (h : shift^[n] r = 0) : r = 0 := by
  induction n generalizing r with
  | zero => exact h
  | succ n ih => exact eq_zero_of_shift (ih h)

/-! ## Bits -/

/-- A bit, where the register takes it in. -/
def top (b : Bool) : UInt16 := if b then 0x8000 else 0

/-- Takes in a bit. -/
def absorbBit (r : UInt16) (b : Bool) : UInt16 := shift (r ^^^ top b)

/-- What some bits leave in an empty register. -/
def residue (bits : List Bool) : UInt16 := bits.foldl absorbBit 0

theorem residue_concat (bits : List Bool) (b : Bool) :
    residue (bits ++ [b]) = shift (residue bits ^^^ top b) := by
  unfold residue
  rw [List.foldl_append]
  rfl

theorem foldl_absorbBit (r : UInt16) (bits : List Bool) :
    bits.foldl absorbBit r = shift^[bits.length] r ^^^ residue bits := by
  induction bits using List.reverseRecOn with
  | nil => exact (UInt16.xor_zero).symm
  | append_singleton bits b ih =>
    rw [List.foldl_append, ih, residue_concat, List.length_append, List.length_singleton,
      Function.iterate_succ_apply']
    show shift _ = _
    rw [UInt16.xor_assoc, shift_xor]

theorem residue_append (bits later : List Bool) :
    residue (bits ++ later) = shift^[later.length] (residue bits) ^^^ residue later := by
  rw [← foldl_absorbBit]
  exact List.foldl_append

theorem residue_replicate (n : Nat) : residue (List.replicate n false) = 0 := by
  induction n with
  | zero => rfl
  | succ n ih =>
    rw [List.replicate_succ', residue_concat, ih]
    exact shift_zero

/-- Zeros before and after make no difference to whether anything is left. -/
theorem residue_eq_zero_of_padded {n m : Nat} {bits : List Bool}
    (h : residue (List.replicate n false ++ bits ++ List.replicate m false) = 0) :
    residue bits = 0 := by
  rw [residue_append, residue_append, residue_replicate, residue_replicate, iterate_shift_zero,
    UInt16.zero_xor, UInt16.xor_zero] at h
  exact eq_zero_of_iterate_shift h

/-- Bits that fit into the register are all in it when as many shifts have been made. -/
theorem residue_of_short {bits : List Bool} (h : bits.length ≤ 16) :
    residue bits = shift^[16] (UInt16.ofNat (Bits.number bits)) := by
  induction bits using List.reverseRecOn with
  | nil => exact (iterate_shift_zero 16).symm
  | append_singleton bits b ih =>
    rw [List.length_append, List.length_singleton] at h
    have hlt : Bits.number bits < 0x8000 :=
      lt_of_lt_of_le (Bits.number_lt bits) (pow_le_pow_right₀ one_le_two (by omega : _ ≤ 15))
    have hb : shift (top b) = shift^[16] (UInt16.ofNat b.toNat) := by
      cases b <;> decide +kernel
    have hnumber : 2 * Bits.number bits + b.toNat = 2 * Bits.number bits ^^^ b.toNat := by
      cases b with
      | false => exact (Nat.xor_zero _).symm
      | true => exact (Nat.xor_one_of_even (even_two_mul _)).symm
    rw [residue_concat, ih (by omega), shift_xor, hb, Bits.number_concat, hnumber,
      UInt16.ofNat_xor, ← shift_ofNat hlt, iterate_shift_xor,
      (Function.Commute.self_iterate shift 16).eq]

/-! ## An odd number of bits -/

/-- Whether an odd number of the register's bits is set. -/
def parity (r : UInt16) : Bool :=
  ((List.range 16).map r.toBitVec.getLsbD).foldr xor false

theorem parity_xor (r s : UInt16) : parity (r ^^^ s) = (parity r ^^ parity s) := by
  unfold parity
  induction List.range 16 with
  | nil => rfl
  | cons i places ih =>
    rw [List.map_cons, List.foldr_cons, ih, UInt16.toBitVec_xor, BitVec.getLsbD_xor, Bool.xor_assoc,
      Bool.xor_left_comm (s.toBitVec.getLsbD i), ← Bool.xor_assoc]
    rfl

theorem parity_top (b : Bool) : parity (top b) = b := by cases b <;> decide

theorem foldr_xor (bits : List Bool) (b : Bool) :
    bits.foldr xor b = (bits.foldr xor false ^^ b) := by
  induction bits with
  | nil => exact (Bool.false_xor b).symm
  | cons a bits ih => rw [List.foldr_cons, ih, List.foldr_cons, Bool.xor_assoc]

/-- Moving the bits up loses the first. -/
theorem parity_double (v : BitVec 16) : parity ⟨v⟩ = (parity ⟨v <<< 1⟩ ^^ v.msb) := by
  have hcons : List.range 16 = 0 :: (List.range 15).map Nat.succ := rfl
  have hconcat : List.range 16 = List.range 15 ++ [15] := rfl
  have hmoved : (List.range 15).map ((v <<< 1).getLsbD ∘ Nat.succ)
      = (List.range 15).map v.getLsbD := by
    refine List.map_congr_left fun i hi => ?_
    have := List.mem_range.1 hi
    rw [Function.comp_apply, BitVec.getLsbD_shiftLeft]
    grind
  have hdouble : parity ⟨v <<< 1⟩ = ((List.range 15).map v.getLsbD).foldr xor false := by
    rw [parity, hcons, List.map_cons, List.map_map, hmoved, List.foldr_cons]
    simp
  rw [hdouble, parity, hconcat, List.map_append, List.foldr_append, foldr_xor,
    BitVec.msb_eq_getLsbD_last]
  simp

/-- A shift that loses a bit adds three others. -/
theorem parity_shift (r : UInt16) : parity (shift r) = parity r := by
  have hshift : shift r = ⟨r.toBitVec <<< 1⟩ ^^^ if r.toBitVec.msb then polynomial else 0 := by
    rw [← UInt16.toBitVec_inj, toBitVec_shift, UInt16.toBitVec_xor]
    cases r.toBitVec.msb <;> rfl
  have hparity : parity (if r.toBitVec.msb then polynomial else 0) = r.toBitVec.msb := by
    cases r.toBitVec.msb <;> decide
  rw [hshift, parity_xor, hparity, ← parity_double]

theorem parity_residue (bits : List Bool) : parity (residue bits) = (bits.count true).bodd := by
  induction bits using List.reverseRecOn with
  | nil => rfl
  | append_singleton bits b ih =>
    rw [residue_concat, parity_shift, parity_xor, ih, parity_top, List.count_append, Nat.bodd_add]
    cases b <;> rfl

theorem residue_ne_zero_of_odd {bits : List Bool} (h : Odd (bits.count true)) :
    residue bits ≠ 0 := by
  intro h0
  have hp := parity_residue bits
  rw [h0, show parity 0 = false from rfl] at hp
  rw [Nat.odd_iff, Nat.mod_two_of_bodd, ← hp] at h
  cases h

/-! ## Bits close to each other -/

/-- Bits none of which is set are as many zeros. -/
theorem eq_replicate_of_not_mem {bits : List Bool} (h : true ∉ bits) :
    bits = List.replicate bits.length false :=
  List.eq_replicate_iff.2
    ⟨rfl, fun b hb => by cases b with | false => rfl | true => exact absurd hb h⟩

theorem residue_ne_zero_of_short {bits : List Bool} (hlen : bits.length ≤ 16) (h : true ∈ bits) :
    residue bits ≠ 0 := by
  intro h0
  rw [residue_of_short hlen] at h0
  have hlt : Bits.number bits < UInt16.size :=
    lt_of_lt_of_le (Bits.number_lt bits) (pow_le_pow_right₀ one_le_two hlen)
  have hn := congrArg UInt16.toNat (eq_zero_of_iterate_shift h0)
  rw [UInt16.toNat_ofNat_of_lt' hlt] at hn
  exact Bits.number_eq_zero_iff.1 hn h

/-- The bits that are set lie within a register's length. -/
theorem residue_ne_zero_of_burst {bits : List Bool} {first : Nat} (h : true ∈ bits)
    (hburst : ∀ i, bits[i]? = some true → first ≤ i ∧ i < first + 16) : residue bits ≠ 0 := by
  intro h0
  have hbefore : true ∉ bits.take first := by
    intro hmem
    obtain ⟨i, hi⟩ := List.mem_iff_getElem?.1 hmem
    rw [List.getElem?_take] at hi
    split at hi
    · have := (hburst i hi).1; omega
    · cases hi
  have hafter : true ∉ bits.drop (first + 16) := by
    intro hmem
    obtain ⟨i, hi⟩ := List.mem_iff_getElem?.1 hmem
    rw [List.getElem?_drop] at hi
    have := (hburst _ hi).2
    omega
  have hsplit : bits = bits.take first ++ (bits.drop first).take 16 ++ bits.drop (first + 16) := by
    rw [List.append_assoc, ← List.drop_drop, List.take_append_drop, List.take_append_drop]
  have hin : true ∈ (bits.drop first).take 16 := by
    rw [hsplit, List.mem_append, List.mem_append] at h
    exact (h.resolve_right hafter).resolve_left hbefore
  rw [hsplit, eq_replicate_of_not_mem hbefore, eq_replicate_of_not_mem hafter] at h0
  exact residue_ne_zero_of_short (List.length_take_le _ _) hin (residue_eq_zero_of_padded h0)

/-! ## Two bits -/

/-- Whether `n` is met in none of so many shifts of a number. -/
def misses (n : Nat) : Nat → Nat → Bool
  | 0, _ => true
  | count + 1, m => shifted m != n && misses n count (shifted m)

theorem iterate_ne_of_misses {n count m d : Nat} (h : misses n count m = true) (h0 : 0 < d)
    (hd : d ≤ count) : shifted^[d] m ≠ n := by
  induction count generalizing m d with
  | zero => omega
  | succ count ih =>
    rw [misses, Bool.and_eq_true, bne_iff_ne] at h
    obtain ⟨d, rfl⟩ := Nat.exists_eq_add_of_lt h0
    rw [Nat.zero_add, Function.iterate_succ_apply]
    rcases Nat.eq_zero_or_pos d with rfl | hpos
    · exact h.1
    · exact ih h.2 hpos (by omega)

theorem iterate_shift_ne {d : Nat} (h0 : 0 < d) (hd : d ≤ 8255) : shift^[d] 0x8000 ≠ 0x8000 := by
  intro h
  have hmisses : misses 0x8000 8255 0x8000 = true := by decide +kernel
  refine iterate_ne_of_misses hmisses h0 hd ?_
  have hiter : Function.Semiconj UInt16.toNat shift^[d] shifted^[d] :=
    Function.Semiconj.iterate_right toNat_shift d
  exact (hiter 0x8000).symm.trans (congrArg UInt16.toNat h)

theorem exists_of_mem {bits : List Bool} (h : true ∈ bits) :
    ∃ n later, bits = List.replicate n false ++ true :: later := by
  obtain ⟨before, later, rfl, hbefore⟩ := List.eq_append_cons_of_mem h
  exact ⟨before.length, later, by rw [← eq_replicate_of_not_mem hbefore]⟩

/-- Two bits set so near to each other that the register is not back where it was. -/
theorem residue_ne_zero_of_two {bits : List Bool} (hlen : bits.length ≤ 8256)
    (h : bits.count true = 2) : residue bits ≠ 0 := by
  intro h0
  obtain ⟨n, later, rfl⟩ := exists_of_mem (List.count_pos_iff.1 (by rw [h]; decide))
  rw [List.count_append, List.count_replicate, if_neg (by decide), List.count_cons_self,
    Nat.zero_add] at h
  obtain ⟨k, last, rfl⟩ := exists_of_mem (List.count_pos_iff.1 (by omega : 0 < later.count true))
  rw [List.count_append, List.count_replicate, if_neg (by decide), List.count_cons_self] at h
  have hlast : true ∉ last := List.count_eq_zero.1 (by omega)
  have hpair : residue (true :: List.replicate k false ++ [true]) = 0 := by
    refine residue_eq_zero_of_padded (n := n) (m := last.length) ?_
    rw [← eq_replicate_of_not_mem hlast]
    simpa using h0
  rw [residue_concat] at hpair
  have hsame := UInt16.xor_eq_zero_iff.1 (eq_zero_of_shift hpair)
  rw [residue, List.foldl_cons, foldl_absorbBit, List.length_replicate, residue_replicate,
    UInt16.xor_zero] at hsame
  refine iterate_shift_ne k.succ_pos ?_ hsame
  simp only [List.length_append, List.length_cons, List.length_replicate] at hlen
  omega

/-- Up to three bits are missed in nothing as short as this. -/
theorem residue_ne_zero_of_few {bits : List Bool} (hlen : bits.length ≤ 8256)
    (h0 : 0 < bits.count true) (h : bits.count true ≤ 3) : residue bits ≠ 0 := by
  rcases (by omega : bits.count true = 2 ∨ bits.count true = 1 ∨ bits.count true = 3)
    with h | h | h
  · exact residue_ne_zero_of_two hlen h
  · exact residue_ne_zero_of_odd (by rw [h]; decide)
  · exact residue_ne_zero_of_odd (by rw [h]; decide)

/-! ## Bytes -/

theorem absorb_eq (r : UInt16) (b : UInt8) : absorb r b = shift^[8] (r ^^^ (b.toUInt16 <<< 8)) :=
  rfl

theorem absorb_xor (r s : UInt16) (a b : UInt8) :
    absorb (r ^^^ s) (a ^^^ b) = absorb r a ^^^ absorb s b := by
  rw [absorb_eq, absorb_eq, absorb_eq, ← iterate_shift_xor]
  congr 1
  rw [UInt8.toUInt16_xor, UInt16.shiftLeft_xor]
  ac_rfl

/-- A byte is taken in as its bits are. -/
theorem foldl_bitsOf (r : UInt16) (b : UInt8) :
    (Bytes.bitsOf b).foldl absorbBit r = absorb r b := by
  have hbyte : ∀ n < 256, shift^[8] (UInt16.ofNat n) = (UInt8.ofNat n).toUInt16 <<< 8 := by
    decide +kernel
  have hb : shift^[8] (UInt16.ofNat b.toNat) = b.toUInt16 <<< 8 := by
    rw [hbyte _ b.toNat_lt, UInt8.ofNat_toNat]
  have hlen : (Bytes.bitsOf b).length ≤ 16 := by rw [Bytes.length_bitsOf]; decide
  rw [foldl_absorbBit, residue_of_short hlen, Bytes.number_bitsOf, Bytes.length_bitsOf,
    show 16 = 8 + 8 from rfl, Function.iterate_add_apply, hb, absorb_eq, iterate_shift_xor]

theorem foldl_bits (r : UInt16) (bytes : Bytes) :
    (Bytes.bits bytes).foldl absorbBit r = bytes.foldl absorb r := by
  induction bytes generalizing r with
  | nil => rfl
  | cons b bytes ih =>
    rw [Bytes.bits, List.flatMap_cons, List.foldl_append, foldl_bitsOf, List.foldl_cons, ← ih]
    rfl

theorem foldl_damage {sent heard : Bytes} (h : heard.length = sent.length) (r s : UInt16) :
    (Bytes.damage sent heard).foldl absorb (r ^^^ s)
      = sent.foldl absorb r ^^^ heard.foldl absorb s := by
  induction sent generalizing heard r s with
  | nil => rw [List.length_eq_zero_iff.1 h]; rfl
  | cons a sent ih =>
    obtain ⟨b, heard, rfl⟩ := List.exists_cons_of_length_eq_add_one h
    rw [Bytes.damage, List.zipWith_cons_cons, List.foldl_cons, absorb_xor]
    exact ih (Nat.succ.inj h) _ _

/-- Damage moves the register by what its bits leave in an empty one. -/
theorem foldl_heard {sent heard : Bytes} (h : heard.length = sent.length) (r : UInt16) :
    heard.foldl absorb r =
      sent.foldl absorb r ^^^ residue (Bytes.bits (Bytes.damage sent heard)) := by
  have hd := foldl_damage h r r
  rw [UInt16.xor_self, ← foldl_bits] at hd
  rw [residue, hd, ← UInt16.xor_assoc, UInt16.xor_self, UInt16.zero_xor]

/-- A word whose first byte is taken in first fills the register. -/
theorem foldl_reverse_word {word : Bytes} (h : word.length = 2) (r : UInt16) :
    word.reverse.foldl absorb r = shift^[16] (r ^^^ UInt16.ofNat (Bytes.toNat word)) := by
  obtain ⟨low, high, rfl⟩ := List.length_eq_two.1 h
  have hlen : (Bytes.bits [high, low]).length = 16 := Bytes.length_bits _
  have hnumber : Bits.number (Bytes.bits [high, low]) = Bytes.toNat [low, high] := by
    rw [Bytes.bits, List.flatMap_cons, List.flatMap_singleton, Bits.number_append,
      Bytes.length_bitsOf, Bytes.number_bitsOf, Bytes.number_bitsOf]
    simp only [Bytes.toNat]
    omega
  show [high, low].foldl absorb r = _
  rw [← foldl_bits, foldl_absorbBit, residue_of_short hlen.le, hlen, hnumber, iterate_shift_xor]

end Checksum

end RadarHost
