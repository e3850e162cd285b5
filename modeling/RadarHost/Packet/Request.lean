import RadarHost.Packet.Basic
import RadarHost.Packet.Command

/-!
# Requests

What the host sends: start byte, command byte, two bytes of payload length, payload, checksum.
-/

namespace RadarHost

/-- A request from the host to the board. -/
structure Request where
  command : Command
  payload : Bytes
  deriving DecidableEq, Repr

namespace Request

/-- Bytes before the payload. -/
def headerSize : Nat := 4

/-- The packet of a request. -/
def encode (r : Request) : Except PacketError Bytes :=
  if Packet.maxReplyPayload < r.payload.length then
    .error (.payloadTooLarge r.payload.length Packet.maxReplyPayload)
  else
    .ok (Packet.withChecksum (Packet.requestStart :: r.command.byte ::
      (Bytes.ofNat 2 r.payload.length ++ r.payload)))

/-- The request at the start of some bytes, and how many of them it takes. -/
def parse (bytes : Bytes) : Except PacketError (Request × Nat) :=
  match bytes with
  | start :: command :: l₀ :: l₁ :: rest =>
    if start ≠ Packet.requestStart then
      .error (.invalidStart Packet.requestStart start)
    else
      let length := Bytes.toNat [l₀, l₁]
      let total := headerSize + length + Packet.checksumSize
      if Packet.maxReplyPayload < length then
        .error (.payloadTooLarge length Packet.maxReplyPayload)
      else if bytes.length < total then
        .error (.incompletePacket bytes.length total)
      else
        match Packet.checkedBody (bytes.take total), Command.ofByte? command with
        | .error e, _ => .error e
        | .ok _, none => .error (.invalidCommand command)
        | .ok _, some c => .ok (⟨c, rest.take length⟩, total)
  | _ => .error (.cursor (.outOfBounds headerSize bytes.length))

end Request

end RadarHost
