import RadarHost.Packet.Error

/-!
# Board identity

What a board says of itself in the ten bytes of its reply to the probe, and the description by which
the host knows it.
-/

namespace RadarHost

/-- The version of a board's firmware. -/
structure Firmware where
  major : UInt8
  minor : UInt8
  patch : UInt16
  deriving DecidableEq, Repr

/-- A version as text: its three parts with points between. -/
def Firmware.text (f : Firmware) : String :=
  s!"{f.major.toNat}.{f.minor.toNat}.{f.patch.toNat}"

/-- The identity of a board: vendor, product, protocol and firmware. -/
structure BoardInfo where
  vid : UInt16
  pid : UInt16
  protocolVersion : UInt16
  firmware : Firmware
  deriving DecidableEq, Repr

namespace BoardInfo

/-- Bytes of an identity. -/
def size : Nat := 10

/-- The bytes of an identity. -/
def toBytes (i : BoardInfo) : Bytes :=
  Bytes.ofNat 2 i.vid.toNat ++ Bytes.ofNat 2 i.pid.toNat ++ Bytes.ofNat 2 i.protocolVersion.toNat ++
    [i.firmware.major, i.firmware.minor] ++ Bytes.ofNat 2 i.firmware.patch.toNat

/-- The identity that exactly ten bytes give. -/
def ofBytes (payload : Bytes) : Except PacketError BoardInfo :=
  match payload with
  | v₀ :: v₁ :: p₀ :: p₁ :: n₀ :: n₁ :: major :: minor :: f₀ :: f₁ :: rest =>
    if rest.isEmpty then
      .ok { vid := UInt16.ofNat (Bytes.toNat [v₀, v₁])
            pid := UInt16.ofNat (Bytes.toNat [p₀, p₁])
            protocolVersion := UInt16.ofNat (Bytes.toNat [n₀, n₁])
            firmware := ⟨major, minor, UInt16.ofNat (Bytes.toNat [f₀, f₁])⟩ }
    else .error (.cursor (.trailingData rest.length))
  | _ => .error (.cursor (.outOfBounds size payload.length))

end BoardInfo

/-- A board that the host knows how to talk to. -/
structure BoardDescriptor where
  vid : UInt16
  pid : UInt16
  name : String
  deriving DecidableEq, Repr

/-- Whether an identity is that of the described board. -/
def BoardDescriptor.describes (d : BoardDescriptor) (info : BoardInfo) : Bool :=
  d.vid == info.vid && d.pid == info.pid

end RadarHost
