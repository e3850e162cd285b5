/-!
# Sets of places

A set of places of an array, one bit for each place, sixty-four to a word. `contains_insert` says
that a place whose word is there is put into the set, and no other.
-/

namespace RadarHost

structure PlacedSet where
  words : Array UInt64

namespace PlacedSet

/-- The empty set of places of an array of some length. -/
def ofLen (len : Nat) : PlacedSet := ⟨Array.replicate ((len + 63) / 64) 0⟩

/-- The bit of a place in its word. -/
def bit (place : Nat) : UInt64 := 1 <<< UInt64.ofNat (place % 64)

def insert (s : PlacedSet) (place : Nat) : PlacedSet :=
  ⟨s.words.modify (place / 64) (· ||| bit place)⟩

def contains (s : PlacedSet) (place : Nat) : Bool :=
  s.words.getD (place / 64) 0 &&& bit place != 0

/-- Whether the word of a place is there. -/
def Holds (s : PlacedSet) (place : Nat) : Prop := place / 64 < s.words.size

theorem holds_ofLen {len place : Nat} (h : place < len) : (ofLen len).Holds place := by
  simp only [Holds, ofLen, Array.size_replicate]
  omega

theorem Holds.insert {s : PlacedSet} {place : Nat} (h : s.Holds place) (other : Nat) :
    (s.insert other).Holds place := by
  simpa only [Holds, PlacedSet.insert, Array.size_modify] using h

theorem toBitVec_bit (place : Nat) : (bit place).toBitVec = BitVec.twoPow 64 (place % 64) := by
  have h : place % 64 < 64 := Nat.mod_lt _ (by decide)
  rw [bit, UInt64.toBitVec_shiftLeft, BitVec.twoPow]
  apply BitVec.eq_of_toNat_eq
  simp [Nat.mod_eq_of_lt h]

/-- A place is in the set if its bit is set. -/
theorem contains_eq (s : PlacedSet) (place : Nat) :
    s.contains place = (s.words.getD (place / 64) 0).toBitVec.getLsbD (place % 64) := by
  have h : place % 64 < 64 := Nat.mod_lt _ (by decide)
  rw [contains]
  generalize s.words.getD (place / 64) 0 = w
  have hw : (w &&& bit place != 0) = ((w &&& bit place).toBitVec != 0#64) := by
    rw [Bool.eq_iff_iff, bne_iff_ne, bne_iff_ne, ne_eq, ne_eq, ← UInt64.toBitVec_inj]
    rfl
  rw [hw, UInt64.toBitVec_and, toBitVec_bit, BitVec.and_twoPow]
  cases w.toBitVec.getLsbD (place % 64) with
  | false => rfl
  | true =>
    rw [if_pos rfl, bne_iff_ne]
    intro h0
    have := congrArg (·.getLsbD (place % 64)) h0
    simp [h] at this

@[simp] theorem contains_ofLen (len place : Nat) : (ofLen len).contains place = false := by
  have hw : (ofLen len).words.getD (place / 64) 0 = 0 := by
    rw [ofLen, Array.getD_eq_getD_getElem?, Array.getElem?_replicate]
    split <;> rfl
  rw [contains, hw, UInt64.zero_and]
  rfl

theorem contains_insert {s : PlacedSet} {place : Nat} (h : s.Holds place) (other : Nat) :
    (s.insert place).contains other = (decide (place = other) || s.contains other) := by
  have hlt : place % 64 < 64 := Nat.mod_lt _ (by decide)
  rw [contains_eq, contains_eq, insert, Array.getD_eq_getD_getElem?, Array.getElem?_modify,
    Array.getD_eq_getD_getElem?]
  by_cases hw : place / 64 = other / 64
  · rw [if_pos hw, ← hw, Array.getElem?_eq_getElem (show place / 64 < s.words.size from h)]
    simp only [Option.map_some, Option.getD_some, UInt64.toBitVec_or, BitVec.getLsbD_or,
      toBitVec_bit, BitVec.getLsbD_twoPow, hlt, decide_true, Bool.true_and]
    rw [Bool.or_comm, decide_eq_decide.2 (show place % 64 = other % 64 ↔ place = other by omega)]
  · rw [if_neg hw, decide_eq_false (by rintro rfl; exact hw rfl), Bool.false_or]

end PlacedSet

end RadarHost
