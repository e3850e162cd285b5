import RadarHost.Packet.Error
import RadarHost.Time

/-!
# What goes wrong on a line

A line fails below the packets (`TransportError`) or carries a bad one (`LinkError`). Discovery
sorts both by what they say of the board (`AttemptError`): after a failed line or a damaged reply
the other rate is worth a try (`AttemptError.isRetryable`), after an intact reply it is not.
-/

namespace RadarHost

/-- Why bytes could not be exchanged. -/
inductive TransportError
  | openFailed (identifier : String) (baudRate : UInt32) (reason : String)
  | io (reason : String)
  /-- No complete reply came in time. -/
  | timeout (waitedMs : Nat)
  /-- The line has been closed. -/
  | closed
  deriving DecidableEq, Repr

namespace TransportError

def message : TransportError → String
  | openFailed identifier baudRate reason =>
    s!"Cannot open {identifier} at {baudRate.toNat} baud: {reason}"
  | io reason => s!"I/O error: {reason}"
  | timeout waitedMs => s!"No reply within {waitedMs} ms"
  | closed => "Transport closed"

/-- The text of the error behind this one. -/
def cause : TransportError → Option String
  | io reason => some reason
  | _ => none

end TransportError

/-- Why packets could not be exchanged. -/
inductive LinkError
  /-- The line failed, which usually ends the session. -/
  | transport (error : TransportError)
  /-- A packet was bad, which concerns that packet only. -/
  | packet (error : PacketError)
  deriving DecidableEq, Repr

def LinkError.message : LinkError → String
  | transport error => error.message
  | packet error => s!"Protocol error: {error.message}"

/-- Why an attempt to find a board was rejected. -/
inductive AttemptError
  | transport (error : TransportError)
  /-- The reply was damaged or none at all. -/
  | integrity (error : PacketError)
  /-- The reply was intact: the board refused the probe. -/
  | refused (error : PacketError)
  /-- The reply was intact: the board is not a known one. -/
  | unknownBoard (vid pid : UInt16)
  deriving DecidableEq, Repr

namespace AttemptError

def message : AttemptError → String
  | transport error => error.message
  | integrity error => s!"Integrity check failed: {error.message}"
  | refused error => s!"Board refused probe: {error.message}"
  | unknownBoard vid pid => s!"Unknown board {hexWord 4 vid.toNat}:{hexWord 4 pid.toNat}"

/-- Whether another rate may succeed where this attempt failed. -/
def isRetryable : AttemptError → Bool
  | transport _ | integrity _ => true
  | refused _ | unknownBoard _ _ => false

/-- A bad packet, sorted by whether it was intact. -/
def ofPacket (error : PacketError) : AttemptError :=
  if error.isIntegrityFailure then integrity error else refused error

def ofLink : LinkError → AttemptError
  | .transport error => transport error
  | .packet error => ofPacket error

/-- The text of the error behind this one. -/
def cause : AttemptError → Option String
  | transport error => error.cause
  | _ => none

end AttemptError

/-- One rejected attempt. -/
structure AttemptFailure where
  identifier : String
  baudRate : UInt32
  cause : AttemptError
  deriving DecidableEq, Repr

def AttemptFailure.message (f : AttemptFailure) : String :=
  s!"{f.identifier} @ {f.baudRate.toNat} baud: {f.cause.message}"

/-- No candidate was a known board at any rate: every attempt, in order. -/
structure NotFound where
  attempts : List AttemptFailure
  deriving DecidableEq, Repr

def NotFound.message (e : NotFound) : String :=
  s!"Board not found ({e.attempts.length} attempts failed)"

end RadarHost
