import Mathlib.Data.List.Induction
import Mathlib.Tactic.Ring
import RadarHost.Bytes

/-!
# Bits of a byte string

A byte string as the bits that the line carries, most significant bit of each byte first
(`Bytes.bits`), and the number that some bits write (`Bits.number`). What happened to bytes of which
as many were heard as were sent is their exclusive or (`Bytes.damage`): its set bits are the ones
that were turned over, and `Bytes.distance` counts them.
-/

namespace RadarHost

/-! ## Numbers -/

namespace Bits

/-- The number that some bits write, most significant first. -/
def number (bits : List Bool) : Nat := bits.foldl (fun n b => 2 * n + b.toNat) 0

theorem number_concat (bits : List Bool) (b : Bool) :
    number (bits ++ [b]) = 2 * number bits + b.toNat := by
  unfold number
  rw [List.foldl_append]
  rfl

theorem number_lt (bits : List Bool) : number bits < 2 ^ bits.length := by
  induction bits using List.reverseRecOn with
  | nil => exact Nat.one_pos
  | append_singleton bits b ih =>
    have := b.toNat_le
    rw [number_concat, List.length_append, List.length_singleton, Nat.pow_succ]
    omega

theorem number_append (bits later : List Bool) :
    number (bits ++ later) = number bits * 2 ^ later.length + number later := by
  induction later using List.reverseRecOn with
  | nil => simp [number]
  | append_singleton later b ih =>
    rw [← List.append_assoc, number_concat, number_concat, ih, List.length_append,
      List.length_singleton, Nat.pow_succ]
    ring

/-- Only zeros write zero. -/
theorem number_eq_zero_iff {bits : List Bool} : number bits = 0 ↔ true ∉ bits := by
  induction bits using List.reverseRecOn with
  | nil => exact ⟨fun _ => List.not_mem_nil, fun _ => rfl⟩
  | append_singleton bits b ih =>
    rw [number_concat, List.mem_append, not_or, ← ih]
    cases b <;> simp

end Bits

/-! ## Bytes -/

namespace Bytes

/-- The bits of a byte, most significant first. -/
def bitsOf (b : UInt8) : List Bool := (List.range 8).map b.toBitVec.getMsbD

/-- The bits of some bytes, as the line carries them. -/
def bits (bytes : Bytes) : List Bool := bytes.flatMap bitsOf

@[simp] theorem length_bitsOf (b : UInt8) : (bitsOf b).length = 8 := by simp [bitsOf]

@[simp] theorem length_bits (bytes : Bytes) : (bits bytes).length = 8 * bytes.length := by
  induction bytes with
  | nil => rfl
  | cons b bytes ih =>
    rw [bits, List.flatMap_cons, List.length_append, length_bitsOf, List.length_cons]
    rw [bits] at ih
    omega

theorem bits_append (bytes later : Bytes) : bits (bytes ++ later) = bits bytes ++ bits later :=
  List.flatMap_append

theorem number_bitsOf (b : UInt8) : Bits.number (bitsOf b) = b.toNat := by
  have h : ∀ n < 256, Bits.number (bitsOf (UInt8.ofNat n)) = n := by decide +kernel
  simpa using h b.toNat b.toNat_lt

/-! ## Damage -/

/-- What was done to some bytes on the line. -/
def damage (sent heard : Bytes) : Bytes := List.zipWith (· ^^^ ·) sent heard

/-- How many bits were turned over. -/
def distance (sent heard : Bytes) : Nat := (bits (damage sent heard)).count true

theorem length_damage {sent heard : Bytes} (h : heard.length = sent.length) :
    (damage sent heard).length = sent.length := by
  rw [damage, List.length_zipWith, h, Nat.min_self]

theorem damage_append {sent heard sent' heard' : Bytes} (h : heard.length = sent.length) :
    damage (sent ++ sent') (heard ++ heard') = damage sent heard ++ damage sent' heard' :=
  List.zipWith_append h.symm

/-- Bytes of which no bit was turned over are heard as they were sent. -/
theorem eq_of_damage {sent heard : Bytes} (h : heard.length = sent.length)
    (hd : true ∉ bits (damage sent heard)) : heard = sent := by
  induction sent generalizing heard with
  | nil => exact List.length_eq_zero_iff.1 h
  | cons a sent ih =>
    obtain ⟨b, heard, rfl⟩ := List.exists_cons_of_length_eq_add_one h
    rw [damage, List.zipWith_cons_cons, bits, List.flatMap_cons, List.mem_append, not_or] at hd
    have hab : a ^^^ b = 0 := by
      rw [← UInt8.toNat_inj, ← number_bitsOf, Bits.number_eq_zero_iff.2 hd.1]
      rfl
    rw [ih (Nat.succ.inj h) hd.2, UInt8.xor_eq_zero_iff.1 hab]

end Bytes

end RadarHost
