/-!
# Bits of a word

Masks, swaps, counts and reversal on words of any width. Every shift carries the proof that its
amount is below the width, and a mask is refused exactly when its range ends past the word
(`mask_eq_error_iff`).
-/

namespace RadarHost

/-- A mask does not fit into a word of `bits` bits. -/
structure RangeError where
  width : Nat
  offset : Nat
  bits : Nat
  deriving DecidableEq, Repr

def RangeError.message (e : RangeError) : String :=
  s!"width {e.width} + offset {e.offset} exceed type width of {e.bits} bits"

namespace Word

variable {w : Nat}

/-- A shift to the left by less than the width. -/
def shiftUp (v : BitVec w) (amount : Nat) (_ : amount < w) : BitVec w := v <<< amount

/-- A shift to the right by less than the width. -/
def shiftDown (v : BitVec w) (amount : Nat) (_ : amount < w) : BitVec w := v >>> amount

/-- Exchanges two bits: both are turned over when they differ. -/
def swap (v : BitVec w) (a b : Fin w) : BitVec w :=
  if (shiftDown v a a.2 ^^^ shiftDown v b b.2) &&& 1#w = 0#w then v
  else v ^^^ shiftUp 1#w a a.2 ^^^ shiftUp 1#w b b.2

/-- The word whose set bits are the `width` bits from `offset` on. -/
def mask (w width offset : Nat) : Except RangeError (BitVec w) :=
  if fits : width + offset ≤ w then
    if empty : width = 0 then .ok 0#w
    else if full : width = w then .ok (BitVec.allOnes w)
    else .ok (shiftUp (shiftUp 1#w width (by omega) - 1#w) offset (by omega))
  else .error ⟨width, offset, w⟩

/-- The lowest `bits` bits of a word. -/
def keepLow (v : BitVec w) (bits : Nat) : BitVec w :=
  if h : bits < w then v &&& (shiftUp 1#w bits h - 1#w) else v

/-- How many bits are set. -/
def countOnes (v : BitVec w) : Nat := (List.range w).countP v.getLsbD

/-- The bits in the opposite order. -/
def reverse (v : BitVec w) : BitVec w := v.reverse

/-- A mask refuses exactly the ranges that end past the word. -/
theorem mask_eq_error_iff {width offset : Nat} {e : RangeError} :
    mask w width offset = .error e ↔ w < width + offset ∧ e = ⟨width, offset, w⟩ := by
  unfold mask
  split
  · split
    · simp; omega
    · split <;> simp <;> omega
  · simp only [Except.error.injEq, eq_comm]; constructor
    · rintro rfl; exact ⟨by omega, rfl⟩
    · exact fun h => h.2

end Word

end RadarHost
