import RadarHost.Packet.Basic
import RadarHost.Packet.Command

/-!
# Replies

What the board answers: start byte, the command's byte, two bytes of status, two bytes of payload
length, payload, checksum. A status of zero is success.
-/

namespace RadarHost

/-- A reply from the board to the host. -/
structure Reply where
  command : UInt8
  status : UInt16
  payload : Bytes
  deriving DecidableEq, Repr

namespace Reply

/-- Bytes before the payload. -/
def headerSize : Nat := 6

/-- The packet of a reply. -/
def encode (r : Reply) : Except PacketError Bytes :=
  if Packet.maxReplyPayload < r.payload.length then
    .error (.payloadTooLarge r.payload.length Packet.maxReplyPayload)
  else
    .ok (Packet.withChecksum (Packet.replyStart :: r.command ::
      (Bytes.ofNat 2 r.status.toNat ++ Bytes.ofNat 2 r.payload.length ++ r.payload)))

/-- The length that the header of a reply announces for the whole packet; none while the header
is incomplete. A length that no reply has is refused: the start byte was noise. -/
def packetLen (bytes : Bytes) : Except PacketError (Option Nat) :=
  match bytes with
  | _ :: _ :: _ :: _ :: l₀ :: l₁ :: _ =>
    let length := Bytes.toNat [l₀, l₁]
    if Packet.maxReplyPayload < length then
      .error (.payloadTooLarge length Packet.maxReplyPayload)
    else .ok (some (headerSize + length + Packet.checksumSize))
  | _ => .ok none

/-- A length that has been announced stands, whatever follows. -/
theorem packetLen_append {bytes : Bytes} {total : Nat} (later : Bytes)
    (h : packetLen bytes = .ok (some total)) : packetLen (bytes ++ later) = .ok (some total) := by
  unfold packetLen at h
  split at h
  · exact h
  · cases h

/-- The reply to `expected` at the start of some bytes. The checksum comes before what the packet
says: a reply that fails it says nothing about the board. -/
def parse (bytes : Bytes) (expected : Command) : Except PacketError Reply :=
  match packetLen bytes, bytes with
  | .error e, _ => .error e
  | .ok (some total), start :: command :: s₀ :: s₁ :: l₀ :: l₁ :: rest =>
    if bytes.length < total then .error (.incompletePacket bytes.length total)
    else if start ≠ Packet.replyStart then .error (.invalidStart Packet.replyStart start)
    else
      match Packet.checkedBody (bytes.take total) with
      | .error e => .error e
      | .ok _ =>
        let status := UInt16.ofNat (Bytes.toNat [s₀, s₁])
        if command ≠ expected.byte then .error (.unexpectedCommand expected.byte command)
        else if status ≠ 0 then .error (.boardStatus status)
        else .ok ⟨command, status, rest.take (Bytes.toNat [l₀, l₁])⟩
  | .ok _, _ => .error (.incompletePacket bytes.length (headerSize + Packet.checksumSize))

end Reply

end RadarHost
