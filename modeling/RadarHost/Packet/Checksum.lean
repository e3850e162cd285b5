import RadarHost.Bytes

/-!
# The packet checksum

A cyclic redundancy check of sixteen bits: polynomial `x^16 + x^12 + x^5 + 1`, all ones at the
start, most significant bit of each byte first, nothing turned over at the end.
-/

namespace RadarHost

namespace Checksum

/-- The polynomial without its leading term. -/
def polynomial : UInt16 := 0x1021

/-- The register before the first byte. -/
def start : UInt16 := 0xFFFF

/-- Multiplies the register by `x`, modulo the polynomial. -/
def shift (r : UInt16) : UInt16 :=
  if r &&& 0x8000 = 0 then r <<< 1 else (r <<< 1) ^^^ polynomial

/-- Takes in a byte: it is added at the top of the register and shifted through. -/
def absorb (r : UInt16) (b : UInt8) : UInt16 := Nat.repeat shift 8 (r ^^^ (b.toUInt16 <<< 8))

end Checksum

/-- The checksum of some bytes. -/
def checksum (bytes : Bytes) : UInt16 := bytes.foldl Checksum.absorb Checksum.start

/-- The check value: the checksum of the digits from 1 to 9. -/
theorem checksum_digits : checksum [49, 50, 51, 52, 53, 54, 55, 56, 57] = 0x29B1 := by
  decide +kernel

end RadarHost
