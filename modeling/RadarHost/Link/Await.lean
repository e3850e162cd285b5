import RadarHost.Link.Dialogue
import RadarHost.Packet.Reader
import RadarHost.Packet.Request

/-!
# Exchanging packets over a line

`exchange` sends a command and waits for the first reply; `nextFrame` waits for the first frame.
Both take what the reader holds before they read the line, and give up when nothing that they want
is complete and the clock has reached their deadline. Whatever they leave, the reader keeps.
-/

namespace RadarHost

namespace PacketReader

/-- Bytes asked for in one read. -/
def readChunk : Nat := 4096

/-- Reads the line once. -/
def fill (r : PacketReader) (line : Nat) (timeout : Duration) :
    Dialogue (Except TransportError PacketReader) := do
  match ← Dialogue.perform (.read line readChunk timeout) with
  | .bytes bytes => return .ok (r.append bytes)
  | .failed e => return .error e
  | .crashed => .broken .crashed

/-- The report of a run of noise. -/
def noiseEvent : Packet.Noise → Event
  | .all bytes => .noStartByte bytes
  | .beforeStart bytes => .noiseBeforeStart bytes

/-- The report of what was passed over while the reply to a command was awaited. -/
def awaitingReply (command : Command) : Packet.Passed → List Event
  | .noise noise => [noiseEvent noise]
  | .unwanted (.frame header _) => [.frameWhileWaiting header.sequence command]
  | .unwanted (.reply _) => []

/-- The report of what was passed over while a frame was awaited. -/
def awaitingFrame : Packet.Passed → List Event
  | .noise noise => [noiseEvent noise]
  | .unwanted (.reply packet) => [.unsolicitedReply packet.length]
  | .unwanted (.frame ..) => []

/-- One turn of waiting for the reply to a command: takes it if it is complete, else reads the line
unless it is too late. Turns go on with the reader they leave. -/
def replyTurn (line : Nat) (command : Command) (started deadline : Instant) (r : PacketReader) :
    Dialogue (PacketReader ⊕ Except LinkError Bytes × PacketReader) := do
  let taken := r.take Packet.reply?
  let kept := taken.reader
  Dialogue.reportAll (taken.passed.flatMap (awaitingReply command))
  match taken.packet with
  | some packet =>
    match Reply.parse packet command with
    | .ok reply => return .inr (.ok reply.payload, kept)
    | .error e => return .inr (.error (.packet e), kept)
  | none =>
    let now ← Dialogue.perform .now
    if deadline ≤ now then
      return .inr (.error (.transport (.timeout (Duration.millis (now - started)))), kept)
    match ← kept.fill line (deadline - now) with
    | .ok r => return .inl r
    | .error e => return .inr (.error (.transport e), kept)

/-- Sends a command and waits for its reply; gives the payload of the reply. Frames that arrive
meanwhile are lost. -/
def exchange (budget : Nat) (line : Nat) (command : Command) (payload : Bytes)
    (timeout : Duration) (r : PacketReader) :
    Dialogue (Except LinkError Bytes × PacketReader) := do
  match Request.encode ⟨command, payload⟩ with
  | .error e => return (.error (.packet e), r)
  | .ok packet =>
    match ← Dialogue.perform (.write line packet) with
    | .error e => return (.error (.transport e), r)
    | .ok () =>
      let started ← Dialogue.perform .now
      Dialogue.loop (replyTurn line command started (Instant.deadlineAfter started timeout))
        budget r

/-- One turn of waiting for a frame packet: takes it if it is complete, else reads the line unless
it is too late. Turns go on with the reader they leave. -/
def frameTurn (line : Nat) (deadline : Instant) (r : PacketReader) :
    Dialogue (PacketReader ⊕ Except TransportError (Option (FrameHeader × Bytes)) × PacketReader) :=
  do
  let taken := r.take Packet.frame?
  let kept := taken.reader
  Dialogue.reportAll (taken.passed.flatMap awaitingFrame)
  match taken.packet with
  | some packet => return .inr (.ok (some packet), kept)
  | none =>
    let now ← Dialogue.perform .now
    if deadline ≤ now then return .inr (.ok none, kept)
    match ← kept.fill line (deadline - now) with
    | .ok r => return .inl r
    | .error e => return .inr (.error e, kept)

/-- Waits for a frame packet. Replies that arrive meanwhile are passed over. -/
def nextFrame (budget : Nat) (line : Nat) (timeout : Duration) (r : PacketReader) :
    Dialogue (Except TransportError (Option (FrameHeader × Bytes)) × PacketReader) := do
  let now ← Dialogue.perform .now
  Dialogue.loop (frameTurn line (Instant.deadlineAfter now timeout)) budget r

end PacketReader

end RadarHost
