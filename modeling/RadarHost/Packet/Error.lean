import RadarHost.Buffer.Cursor
import RadarHost.Digits

/-!
# Why bytes are not the packet they should be

Every cause but a status reported by the board means that the bytes are no intact packet
(`PacketError.isIntegrityFailure`); a status comes in a packet that is intact.
-/

namespace RadarHost

/-- Why a packet was refused. -/
inductive PacketError
  /-- The packet does not begin with the start byte of its kind. -/
  | invalidStart (expected got : UInt8)
  /-- No command has this byte. -/
  | invalidCommand (command : UInt8)
  /-- A reply names another command than the one sent. -/
  | unexpectedCommand (expected got : UInt8)
  /-- The packet carries another checksum than its own. -/
  | checksumMismatch (received computed : UInt16)
  /-- The board answered with a status other than zero. -/
  | boardStatus (status : UInt16)
  /-- The payload is longer than its kind of packet allows. -/
  | payloadTooLarge (length maximum : Nat)
  /-- The packet is longer than the bytes there are. -/
  | incompletePacket (received expected : Nat)
  /-- The bytes end early or late. -/
  | cursor (cause : CursorError)
  deriving DecidableEq, Repr

namespace PacketError

def message : PacketError → String
  | invalidStart expected got =>
    s!"Invalid start byte: expected 0x{hexWord 2 expected.toNat}, got 0x{hexWord 2 got.toNat}"
  | invalidCommand command => s!"Invalid command: 0x{hexWord 2 command.toNat}"
  | unexpectedCommand expected got =>
    s!"Unexpected reply: sent 0x{hexWord 2 expected.toNat}, " ++
      s!"board answered 0x{hexWord 2 got.toNat}"
  | checksumMismatch received computed =>
    s!"CRC mismatch: packet carries 0x{hexWord 4 received.toNat}, " ++
      s!"computed 0x{hexWord 4 computed.toNat}"
  | boardStatus status => s!"Board rejected command with status 0x{hexWord 4 status.toNat}"
  | payloadTooLarge length maximum => s!"Payload too large: {length} bytes (max {maximum})"
  | incompletePacket received expected => s!"Incomplete packet: got {received}/{expected} bytes"
  | cursor cause => s!"Malformed packet: {cause.message}"

/-- Whether the bytes on the line are no valid packet. Only a status proves that the link works:
the packet was intact, and the board refused the command. -/
def isIntegrityFailure : PacketError → Bool
  | boardStatus _ => false
  | _ => true

/-- The error behind this one. -/
def cause : PacketError → Option CursorError
  | cursor cause => some cause
  | _ => none

end PacketError

end RadarHost
