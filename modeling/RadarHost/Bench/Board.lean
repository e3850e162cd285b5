import RadarHost.Time
import RadarHost.Link.Event
import RadarHost.Packet.FrameHeader
import RadarHost.Packet.Reply
import RadarHost.Packet.Request
import RadarHost.Word.Mask

/-!
# A simulated board

A stand-in for a board at the end of a line. It answers requests as firmware would and streams
frames while it has been started. At a rate that it does not accept it still understands the host,
but every byte that it sends arrives with its bits reversed.

Frames are due at the end of an interval after the last one, and are made when the host reads and
nothing else is waiting; the host waits while one is made. How long that takes is nothing that a
board is asked for: it depends on what the board is simulated on, and is a parameter. All functions
are of the time at which they happen; a read says how much time it takes.
-/

namespace RadarHost

/-- The time to make a frame of so many bytes where nothing else is said: 50 ns for each byte, about
what a desk computer takes. -/
def SimulatedBoard.usualMakingTime (payloadLen : Nat) : Duration := payloadLen * 50

/-- How a simulated board behaves. -/
structure SimulatedBoard where
  /-- Rates at which the line works. -/
  acceptedBaudRates : List UInt32
  info : BoardInfo
  /-- Whether every reply carries a wrong checksum. -/
  corruptReplies : Bool
  /-- Frames streamed after each start; none for no end. -/
  frameCount : Option Nat
  framePayloadLen : Nat
  /-- Time between frames. -/
  frameInterval : Duration
  /-- Time that it takes to make a frame, on whatever the board is simulated. -/
  makingTime : Duration := SimulatedBoard.usualMakingTime framePayloadLen
  deriving Repr

namespace SimulatedBoard

/-- A known board that accepts both rates and streams nothing. -/
def default : SimulatedBoard where
  acceptedBaudRates := [921600, 1000000]
  info := ⟨0x058B, 0x0251, 3, ⟨2, 5, 1042⟩⟩
  corruptReplies := false
  frameCount := some 0
  framePayloadLen := 0
  frameInterval := 0

/-- Streams frames without end, one per interval. -/
def streaming (b : SimulatedBoard) (payloadLen : Nat) (interval : Duration) : SimulatedBoard :=
  { b with
    frameCount := none
    framePayloadLen := payloadLen
    frameInterval := interval
    makingTime := usualMakingTime payloadLen }

/-- The sample of twelve bits at a place of the frame of a number: a sawtooth. -/
def sample (sequence : UInt32) (place : Nat) : Nat := (sequence.toNat + place) % 4096

/-- One byte of the frame of a number: samples of two bytes, least significant first. -/
def frameByte (sequence : UInt32) (i : Nat) : UInt8 :=
  if i % 2 = 0 then UInt8.ofNat (sample sequence (i / 2))
  else UInt8.ofNat (sample sequence (i / 2) / 256)

/-- The payload of the frame of a number. -/
def framePayload (b : SimulatedBoard) (sequence : UInt32) : Bytes :=
  (List.range b.framePayloadLen).map (frameByte sequence)

/-- The packet of the frame of a number. A payload that no packet can hold is not made at all. -/
def framePacket (b : SimulatedBoard) (sequence : UInt32) : Except PacketError Bytes :=
  if Packet.maxFramePayload < b.framePayloadLen then
    .error (.payloadTooLarge b.framePayloadLen Packet.maxFramePayload)
  else FrameHeader.encode 0 sequence (b.framePayload sequence)

end SimulatedBoard

/-- An open line to a simulated board. -/
structure BoardLine where
  board : SimulatedBoard
  /-- Whether the line was opened at an accepted rate. -/
  linkOk : Bool
  /-- What the host has written and the board has not handled. -/
  input : Bytes
  /-- What the host has not read. -/
  output : Bytes
  streaming : Bool
  /-- Number of the next frame. -/
  sequence : UInt32
  framesLeft : Option Nat
  nextFrameAt : Instant
  deriving Repr

namespace BoardLine

/-- A line that has just been opened. -/
def opened (board : SimulatedBoard) (baudRate : UInt32) (now : Instant) : BoardLine where
  board := board
  linkOk := board.acceptedBaudRates.contains baudRate
  input := []
  output := []
  streaming := false
  sequence := 0
  framesLeft := none
  nextFrameAt := now

/-- What the host receives of a byte. -/
def garble (linkOk : Bool) (b : UInt8) : UInt8 :=
  if linkOk then b else UInt8.ofBitVec (Word.reverse b.toBitVec)

/-- Queues bytes for the host. -/
def send (l : BoardLine) (bytes : Bytes) : BoardLine :=
  { l with output := l.output ++ bytes.map (garble l.linkOk) }

/-- A packet with the lowest bit of its last byte turned over. -/
def spoil (packet : Bytes) : Bytes := packet.modify (packet.length - 1) (· ^^^ 1)

/-- Replies to a command. A payload that no reply can hold is not sent. -/
def reply (l : BoardLine) (command : Command) (payload : Bytes) : BoardLine :=
  match Reply.encode ⟨command.byte, 0, payload⟩ with
  | .ok packet => l.send (if l.board.corruptReplies then spoil packet else packet)
  | .error _ => l

/-- Does what a command says. -/
def obey (l : BoardLine) (now : Instant) : Command → BoardLine
  | .getBoardInfo => l.reply .getBoardInfo l.board.info.toBytes
  | .startAcquisition =>
    { l.reply .startAcquisition [] with
      streaming := true
      framesLeft := l.board.frameCount
      nextFrameAt := now }
  | .stopAcquisition => { l with streaming := false }.reply .stopAcquisition []

/-- What a board does with bytes that begin like a request. -/
inductive Reading
  /-- More bytes have to come. -/
  | wait
  /-- No request: the start byte was noise. -/
  | noise
  /-- A request of `size` bytes. -/
  | request (command : Command) (size : Nat)
  deriving DecidableEq, Repr

/-- Reads the request that bytes begin with. -/
def reading (bytes : Bytes) : Reading :=
  match Request.parse bytes with
  | .error (.incompletePacket ..) | .error (.cursor _) => .wait
  | .error _ => .noise
  | .ok (request, size) => .request request.command size

theorem reading_request_pos {bytes : Bytes} {command : Command} {size : Nat}
    (h : reading bytes = .request command size) : 0 < size := by
  unfold reading at h
  split at h
  · cases h
  · cases h
  · cases h
  · rename_i hp
    cases h
    unfold Request.parse at hp
    split at hp
    · split at hp
      · cases hp
      · dsimp only at hp
        split at hp
        · cases hp
        · split at hp
          · cases hp
          · split at hp
            · cases hp
            · cases hp
            · cases hp; simp only [Request.headerSize]; omega
    · cases hp

/-- Handles every complete request in the input; keeps what may become one. -/
def serve (l : BoardLine) (now : Instant) (input : Bytes) : BoardLine :=
  match _h : input.dropWhile (· != Packet.requestStart) with
  | [] => { l with input := [] }
  | start :: tail =>
    match _hr : reading (start :: tail) with
    | .wait => { l with input := start :: tail }
    | .noise => l.serve now tail
    | .request command size => (l.obey now command).serve now ((start :: tail).drop size)
termination_by input.length
decreasing_by
  all_goals
    have hs := (List.dropWhile_suffix (· != Packet.requestStart) (l := input)).length_le
    rw [_h, List.length_cons] at hs
  · omega
  · have := reading_request_pos _hr
    simp only [List.length_drop, List.length_cons]
    omega

/-- The host writes. -/
def write (l : BoardLine) (now : Instant) (bytes : Bytes) : BoardLine :=
  l.serve now (l.input ++ bytes)

/-- Whether frames are still to come. -/
def expectsFrames (l : BoardLine) : Bool := l.streaming && l.framesLeft != some 0

/-- What making a frame gives: whether there is one now, the time it takes, what is reported, and
the line after. -/
structure Emission where
  emitted : Bool
  elapsed : Duration
  events : List Event
  line : BoardLine

/-- Makes the next frame if one is due. A board whose frames do not fit into packets stops. -/
def emitFrame (l : BoardLine) (now : Instant) : Emission :=
  if !l.expectsFrames || now < l.nextFrameAt then ⟨false, 0, [], l⟩
  else
    match l.board.framePacket l.sequence with
    | .error e => ⟨false, 0, [.boardStopsStreaming e], { l with streaming := false }⟩
    | .ok packet =>
      ⟨true, l.board.makingTime, [],
        { l.send packet with
          sequence := l.sequence + 1
          framesLeft := l.framesLeft.map (· - 1)
          nextFrameAt := l.nextFrameAt + l.board.frameInterval }⟩

/-- What a read gives: bytes, the time it takes, what is reported, and the line after. -/
structure Reception where
  bytes : Bytes
  elapsed : Duration
  events : List Event
  line : BoardLine

/-- Gives the host at most `max` of the bytes that wait for it. -/
def deliver (l : BoardLine) (max : Nat) (elapsed : Duration) (events : List Event) : Reception :=
  ⟨l.output.take max, elapsed, events, { l with output := l.output.drop max }⟩

/-- The host reads. What waits for it takes no time, a frame that is due takes the time to make it;
for a frame that becomes due in time the read waits, and else it waits out its whole time. The time
to make a frame is not counted towards `timeout`. -/
def read (l : BoardLine) (now : Instant) (max : Nat) (timeout : Duration) : Reception :=
  if l.output.isEmpty then
    let e := l.emitFrame now
    if e.emitted then e.line.deliver max e.elapsed e.events
    else
      let wait := e.line.nextFrameAt - now
      if e.line.expectsFrames && decide (wait ≤ timeout) then
        let later := e.line.emitFrame (now + wait)
        later.line.deliver max (wait + later.elapsed) (e.events ++ later.events)
      else e.line.deliver max timeout e.events
  else l.deliver max 0 []

/-- The host closes the line. -/
def close (l : BoardLine) : BoardLine := { l with output := [], streaming := false }

end BoardLine

end RadarHost
