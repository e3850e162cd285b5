import RadarHost.Link.Await

/-!
# Sessions with a board

A session is a line whose rate and board have been found to be right. It owns the line until it is
closed, and closing it again does nothing. Operations give the session back with their result.
-/

namespace RadarHost

structure Session where
  /-- The open line; none once the session is closed. -/
  line : Option Nat
  identifier : String
  /-- The rate at which the board was found. -/
  baudRate : UInt32
  info : BoardInfo
  /-- The known board that it is. -/
  descriptor : BoardDescriptor
  reader : PacketReader
  /-- How long to wait for the reply to a command. -/
  commandTimeout : Duration
  /-- Number of the last frame since the last start. -/
  lastSequence : Option UInt32
  deriving DecidableEq, Repr

namespace Session

def isOpen (s : Session) : Bool := s.line.isSome

/-- Sets the longest frame payload that is plausible. -/
def setMaxFramePayload (s : Session) (maxPayload : Nat) : Session :=
  { s with reader := { s.reader with limit := min maxPayload Packet.maxFramePayload } }

/-- Sends a command without payload and waits for its reply. -/
def sendCommand (budget : Nat) (command : Command) (s : Session) :
    Dialogue (Except LinkError Bytes × Session) := do
  match s.line with
  | none => return (.error (.transport .closed), s)
  | some line =>
    let (result, reader) ← s.reader.exchange budget line command [] s.commandTimeout
    return (result, { s with reader })

/-- Asks the board to start streaming. -/
def startAcquisition (budget : Nat) (s : Session) :
    Dialogue (Except LinkError Unit × Session) := do
  match ← s.sendCommand budget .startAcquisition with
  | (.error e, s) => return (.error e, s)
  | (.ok _, s) =>
    Dialogue.perform (.report (.acquisitionStarted s.identifier))
    return (.ok (), { s with lastSequence := none })

/-- Asks the board to stop streaming. -/
def stopAcquisition (budget : Nat) (s : Session) :
    Dialogue (Except LinkError Unit × Session) := do
  match ← s.sendCommand budget .stopAcquisition with
  | (.error e, s) => return (.error e, s)
  | (.ok _, s) =>
    Dialogue.perform (.report (.acquisitionStopped s.identifier))
    return (.ok (), s)

/-- The report that a frame number does not follow the last one. -/
def gapEvents (last : Option UInt32) (sequence : UInt32) : List Event :=
  match last with
  | some last => if sequence = last + 1 then [] else [.sequenceGap (last + 1) sequence]
  | none => []

/-- Reads the next frame; none if no frame is complete in time. A damaged frame is an error and
leaves the session usable. -/
def readFrame (budget : Nat) (timeout : Duration) (s : Session) :
    Dialogue (Except LinkError (Option Frame) × Session) := do
  match s.line with
  | none => return (.error (.transport .closed), s)
  | some line =>
    let (result, reader) ← s.reader.nextFrame budget line timeout
    let s := { s with reader }
    match result with
    | .error e => return (.error (.transport e), s)
    | .ok none => return (.ok none, s)
    | .ok (some (header, packet)) =>
      match header.payload packet with
      | .error e => return (.error (.packet e), s)
      | .ok payload =>
        Dialogue.reportAll (gapEvents s.lastSequence header.sequence)
        return (.ok (some ⟨header.sequence, header.flags, payload⟩),
          { s with lastSequence := some header.sequence })

/-- Closes the line. -/
def close (s : Session) : Dialogue Session := do
  match s.line with
  | none => return s
  | some line =>
    Dialogue.perform (.close line)
    Dialogue.perform (.report (.sessionClosed s.identifier))
    return { s with line := none }

/-- Gives a session up: its line is closed if it is still open. -/
def discard (s : Session) : Dialogue Unit := do
  let _ ← s.close
  return ()

/-- Closes a session that may never have come about. -/
def closeAny : Option Session → Dialogue Unit
  | some s => s.discard
  | none => return ()

end Session

end RadarHost
