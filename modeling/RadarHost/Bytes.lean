/-!
# Byte strings

A byte string is a list of bytes, first byte first. `Bytes.ofNat` writes a number in a fixed
count of bytes, least significant first, and `Bytes.toNat` reads one back:
`Bytes.toNat_ofNat` says that a number that fits is read back unchanged, and
`Bytes.ofNat_toNat` that any bytes are what writing their number gives.
-/

namespace RadarHost

/-- A string of bytes, first byte first. -/
abbrev Bytes := List UInt8

/-- The largest count of bytes, or of anything else in memory, that can be addressed. -/
def largestSize : Nat := 0xFFFFFFFFFFFFFFFF

/-- The largest number of 32 bits. -/
def largestWord : Nat := 0xFFFFFFFF

/-- The lowest `count` bytes of a number, least significant first. -/
def Bytes.ofNat : (count : Nat) → Nat → Bytes
  | 0, _ => []
  | count + 1, n => UInt8.ofNat n :: Bytes.ofNat count (n / 256)

/-- The number that bytes write, least significant first. -/
def Bytes.toNat : Bytes → Nat
  | [] => 0
  | b :: rest => b.toNat + 256 * Bytes.toNat rest

/-- How many numbers there are that a count of bytes can write. -/
def Bytes.capacity : (count : Nat) → Nat
  | 0 => 1
  | count + 1 => 256 * Bytes.capacity count

@[simp] theorem Bytes.length_ofNat (count n : Nat) : (Bytes.ofNat count n).length = count := by
  induction count generalizing n with
  | zero => rfl
  | succ count ih => simp [Bytes.ofNat, ih]

theorem Bytes.toNat_lt (b : Bytes) : Bytes.toNat b < Bytes.capacity b.length := by
  induction b with
  | nil => exact Nat.one_pos
  | cons x rest ih =>
    have := x.toNat_lt
    simp only [Bytes.toNat, List.length_cons, Bytes.capacity]
    omega

theorem Bytes.toNat_ofNat {count n : Nat} (h : n < Bytes.capacity count) :
    Bytes.toNat (Bytes.ofNat count n) = n := by
  induction count generalizing n with
  | zero => simp only [Bytes.capacity] at h; simp [Bytes.ofNat, Bytes.toNat]; omega
  | succ count ih =>
    have h' : n / 256 < Bytes.capacity count := by simp only [Bytes.capacity] at h; omega
    simp only [Bytes.ofNat, Bytes.toNat, ih h', UInt8.toNat_ofNat']
    omega

theorem Bytes.ofNat_toNat (b : Bytes) : Bytes.ofNat b.length (Bytes.toNat b) = b := by
  induction b with
  | nil => rfl
  | cons x rest ih =>
    have hx := x.toNat_lt
    have h1 : UInt8.ofNat (x.toNat + 256 * Bytes.toNat rest) = x := by
      apply UInt8.toNat_inj.1
      simp only [UInt8.toNat_ofNat']
      omega
    have h2 : (x.toNat + 256 * Bytes.toNat rest) / 256 = Bytes.toNat rest := by omega
    simp only [List.length_cons, Bytes.toNat, Bytes.ofNat, h1, h2, ih]

theorem Bytes.ofNat_toNat_byte {b : Bytes} (h : b.length = 1) :
    [UInt8.ofNat (Bytes.toNat b)] = b := by
  have hb := Bytes.ofNat_toNat b
  rwa [h] at hb

theorem Bytes.ofNat_toNat_u16 {b : Bytes} (h : b.length = 2) :
    Bytes.ofNat 2 (UInt16.ofNat (Bytes.toNat b)).toNat = b := by
  have hlt : Bytes.toNat b < Bytes.capacity 2 := h ▸ Bytes.toNat_lt b
  rw [UInt16.toNat_ofNat_of_lt' hlt, ← h, Bytes.ofNat_toNat]

theorem Bytes.ofNat_toNat_u32 {b : Bytes} (h : b.length = 4) :
    Bytes.ofNat 4 (UInt32.ofNat (Bytes.toNat b)).toNat = b := by
  have hlt : Bytes.toNat b < Bytes.capacity 4 := h ▸ Bytes.toNat_lt b
  rw [UInt32.toNat_ofNat_of_lt' hlt, ← h, Bytes.ofNat_toNat]

end RadarHost
