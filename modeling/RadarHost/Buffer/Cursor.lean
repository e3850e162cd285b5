import RadarHost.Buffer.Basic

/-!
# Reading a buffer front to back

A cursor stands between two units of a buffer. A unit is a fixed count of bytes, and an element
that is consumed has to be a whole number of units. Sizes in errors are in bytes. A call that fails
leaves the cursor where it was: it returns an error and no cursor.
-/

namespace RadarHost

/-- Why a cursor could not give what it was asked for; all sizes are in bytes. -/
inductive CursorError
  /-- More was requested than is left. -/
  | outOfBounds (requested remaining : Nat)
  /-- An element is not a whole number of units. -/
  | elementSize (element unit : Nat)
  /-- Something is left at the end. -/
  | trailingData (remaining : Nat)
  deriving DecidableEq, Repr

def CursorError.message : CursorError → String
  | outOfBounds requested remaining =>
    s!"consuming {requested} bytes with only {remaining} remaining " ++
      "(possibly check struct packing)"
  | elementSize element unit =>
    s!"element of {element} bytes is not a multiple of the {unit} byte buffer unit"
  | trailingData remaining => s!"{remaining} bytes left unconsumed"

/-- A reader over a buffer. -/
structure Cursor where
  /-- Bytes of one unit. -/
  unit : Nat
  /-- Units before the end. -/
  bound : Nat
  /-- Units consumed. -/
  position : Nat
  /-- The bytes that have not been consumed. -/
  rest : Bytes
  length_rest : rest.length = (bound - position) * unit
  position_le : position ≤ bound

namespace Cursor

/-- A cursor at the start of a buffer. -/
def new (b : Buffer) : Cursor where
  unit := b.unit
  bound := b.count
  position := 0
  rest := b.bytes
  length_rest := b.length_bytes
  position_le := Nat.zero_le _

/-- A cursor at the start of the first `size` units of a buffer. -/
def withSize (b : Buffer) (size : Nat) : Except CursorError Cursor :=
  if h : size ≤ b.count then .ok (new (b.front size h))
  else .error (.outOfBounds (min (size * b.unit) largestSize) (b.count * b.unit))

/-- Units left before the end. -/
def remaining (c : Cursor) : Nat := c.bound - c.position

/-- Whether everything has been consumed. -/
def finished (c : Cursor) : Bool := c.position == c.bound

/-- Refuses to end before everything has been consumed. -/
def finish (c : Cursor) : Except CursorError Unit :=
  if c.finished then .ok () else .error (.trailingData (c.remaining * c.unit))

/-- The next `units` units, and the cursor behind them. -/
def advance (c : Cursor) (units : Nat) (h : units ≤ c.remaining) : Bytes × Cursor :=
  (c.rest.take (units * c.unit),
    { c with
      position := c.position + units
      rest := c.rest.drop (units * c.unit)
      length_rest := by
        rw [List.length_drop, c.length_rest, ← Nat.sub_mul, Nat.sub_sub]
      position_le := by have := c.position_le; unfold remaining at h; omega })

/-- Cuts `count` pieces of `size` bytes off some bytes, after the pieces cut before, last first. -/
def pieces (size : Nat) : (count : Nat) → (before : List Bytes) → Bytes → List Bytes
  | 0, before, _ => before.reverse
  | count + 1, before, bytes => pieces size count (bytes.take size :: before) (bytes.drop size)

/-- Consumes `count` elements of `element` bytes each. -/
def consumeInto (c : Cursor) (element count : Nat) : Except CursorError (List Bytes × Cursor) :=
  if c.unit = 0 ∨ element = 0 ∨ element % c.unit ≠ 0 then
    .error (.elementSize element c.unit)
  else
    let units := count * (element / c.unit)
    if h : units ≤ c.remaining then
      let (bytes, c) := c.advance units h
      .ok (pieces element count [] bytes, c)
    else .error (.outOfBounds (units * c.unit) (c.remaining * c.unit))

/-- Consumes one element of `element` bytes. -/
def consume (c : Cursor) (element : Nat) : Except CursorError (Bytes × Cursor) := do
  let (elements, c) ← c.consumeInto element 1
  return (elements.flatten, c)

/-- Consumes `count` bytes of a buffer whose unit is the byte. -/
def consumeBytes (c : Cursor) (count : Nat) : Except CursorError (Bytes × Cursor) :=
  if h : count ≤ c.remaining then .ok (c.advance count h)
  else .error (.outOfBounds count c.remaining)

/-- Consumes a number of `size` bytes, least significant first. -/
def consumeNat (c : Cursor) (size : Nat) : Except CursorError (Nat × Cursor) := do
  let (bytes, c) ← c.consume size
  return (Bytes.toNat bytes, c)

/-- Consumes a byte. -/
def consumeU8 (c : Cursor) : Except CursorError (UInt8 × Cursor) := do
  let (n, c) ← c.consumeNat 1
  return (UInt8.ofNat n, c)

/-- Consumes a number of two bytes. -/
def consumeU16 (c : Cursor) : Except CursorError (UInt16 × Cursor) := do
  let (n, c) ← c.consumeNat 2
  return (UInt16.ofNat n, c)

/-- Consumes a number of four bytes. -/
def consumeU32 (c : Cursor) : Except CursorError (UInt32 × Cursor) := do
  let (n, c) ← c.consumeNat 4
  return (UInt32.ofNat n, c)

end Cursor

end RadarHost
