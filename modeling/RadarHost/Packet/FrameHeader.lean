import RadarHost.Packet.Basic

/-!
# Frame packets

What the board streams: start byte, flags, four bytes of sequence number, four bytes of payload
length, payload, checksum.
-/

namespace RadarHost

/-- What a frame packet says before its payload. -/
structure FrameHeader where
  flags : UInt8
  sequence : UInt32
  payloadLen : UInt32
  deriving DecidableEq, Repr

namespace FrameHeader

/-- Bytes of a header. -/
def size : Nat := 10

/-- The length of the whole packet. -/
def packetLen (h : FrameHeader) : Nat := size + h.payloadLen.toNat + Packet.checksumSize

/-- The longest payload accepted under a limit: no limit goes past what a frame packet allows. -/
def maxPayload (limit : Nat) : Nat := min limit Packet.maxFramePayload

/-- The header at the start of some bytes, for payloads of at most `limit` bytes. -/
def parse (bytes : Bytes) (limit : Nat) : Except PacketError FrameHeader :=
  match bytes with
  | start :: flags :: q₀ :: q₁ :: q₂ :: q₃ :: l₀ :: l₁ :: l₂ :: l₃ :: _ =>
    let length := Bytes.toNat [l₀, l₁, l₂, l₃]
    if start ≠ Packet.frameStart then
      .error (.invalidStart Packet.frameStart start)
    else if maxPayload limit < length then
      .error (.payloadTooLarge length (maxPayload limit))
    else
      .ok ⟨flags, UInt32.ofNat (Bytes.toNat [q₀, q₁, q₂, q₃]), UInt32.ofNat length⟩
  | _ => .error (.cursor (.outOfBounds size bytes.length))

/-- A header that has been read stands, whatever follows. -/
theorem parse_append {bytes : Bytes} {limit : Nat} {header : FrameHeader} (later : Bytes)
    (h : parse bytes limit = .ok header) : parse (bytes ++ later) limit = .ok header := by
  unfold parse at h
  split at h
  · exact h
  · cases h

/-- The frame packet of a payload. -/
def encode (flags : UInt8) (sequence : UInt32) (payload : Bytes) : Except PacketError Bytes :=
  if Packet.maxFramePayload < payload.length then
    .error (.payloadTooLarge payload.length Packet.maxFramePayload)
  else
    .ok (Packet.withChecksum (Packet.frameStart :: flags ::
      (Bytes.ofNat 4 sequence.toNat ++ Bytes.ofNat 4 payload.length ++ payload)))

/-- The payload of a packet that is as long as its header says and carries its own checksum. -/
def payload (h : FrameHeader) (packet : Bytes) : Except PacketError Bytes :=
  if packet.length ≠ h.packetLen then
    .error (.incompletePacket packet.length h.packetLen)
  else (Packet.checkedBody packet).map (·.drop size)

end FrameHeader

end RadarHost
