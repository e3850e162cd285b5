import RadarHost.Bytes

/-!
# Buffers

Memory made of units of one size. A buffer is cut into what is in front of a place and what is
behind it.
-/

namespace RadarHost

/-- Memory made of `count` units of `unit` bytes each; a unit may be empty. -/
structure Buffer where
  unit : Nat
  count : Nat
  bytes : Bytes
  length_bytes : bytes.length = count * unit

namespace Buffer

/-- The whole units of some bytes. -/
def ofBytes (unit : Nat) (bytes : Bytes) : Buffer where
  unit := unit
  count := bytes.length / unit
  bytes := bytes.take (bytes.length / unit * unit)
  length_bytes := by
    rw [List.length_take]
    exact Nat.min_eq_left (Nat.div_mul_le_self ..)

/-- A count of units that hold no bytes. -/
def ofEmptyUnits (count : Nat) : Buffer := ⟨0, count, [], rfl⟩

/-- The first `size` units. -/
def front (b : Buffer) (size : Nat) (h : size ≤ b.count) : Buffer where
  unit := b.unit
  count := size
  bytes := b.bytes.take (size * b.unit)
  length_bytes := by
    rw [List.length_take, b.length_bytes]
    exact Nat.min_eq_left (Nat.mul_le_mul_right _ h)

/-- What is behind the first `size` units. -/
def behind (b : Buffer) (size : Nat) : Buffer where
  unit := b.unit
  count := b.count - size
  bytes := b.bytes.drop (size * b.unit)
  length_bytes := by rw [List.length_drop, b.length_bytes, Nat.sub_mul]

end Buffer

end RadarHost
