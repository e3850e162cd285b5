import RadarHost.Acquisition.Stats
import RadarHost.Link.Error
import RadarHost.Packet.BoardInfo
import RadarHost.Packet.Command

/-!
# Events

What the host reports while it works, each with its level, the part of the program that reports it
and its text.
-/

namespace RadarHost

/-- How much an event matters, least first. -/
inductive Level
  | trace
  | debug
  | info
  | warn
  | error
  deriving DecidableEq, Repr

namespace Level

def name : Level → String
  | trace => "TRACE"
  | debug => "DEBUG"
  | info => "INFO"
  | warn => "WARN"
  | error => "ERROR"

/-- The place of a level among all of them. -/
def rank : Level → Nat
  | trace => 0
  | debug => 1
  | info => 2
  | warn => 3
  | error => 4

end Level

inductive Event
  /-- All buffered bytes were noise. -/
  | noStartByte (bytes : Nat)
  /-- Noise stood before a start byte. -/
  | noiseBeforeStart (bytes : Nat)
  /-- A frame came while a reply was awaited. -/
  | frameWhileWaiting (sequence : UInt32) (command : Command)
  | acquisitionStarted (identifier : String)
  | acquisitionStopped (identifier : String)
  | sequenceGap (expected got : UInt32)
  /-- A reply came while a frame was awaited. -/
  | unsolicitedReply (bytes : Nat)
  | sessionClosed (identifier : String)
  | probing (identifier : String) (baudRate : UInt32)
  | boardFound (name : String) (firmware : Firmware) (identifier : String) (baudRate : UInt32)
  | attemptFailed (identifier : String) (baudRate : UInt32) (cause : AttemptError)
  | noBoardFound (candidates : Nat)
  | probeCrashed (identifier : String)
  | boardStopsStreaming (cause : PacketError)
  | frameRejected
  | frameCorrupt (cause : PacketError)
  | transportFailed (identifier : String) (cause : TransportError)
  | stopUnconfirmed (cause : LinkError)
  | producerCrashed
  | acquisitionFinished (stats : AcquisitionStats)
  deriving DecidableEq, Repr

namespace Event

def level : Event → Level
  | noStartByte _ | noiseBeforeStart _ => .trace
  | frameWhileWaiting .. | unsolicitedReply _ | probing .. | attemptFailed .. | noBoardFound _
  | frameRejected => .debug
  | acquisitionStarted _ | acquisitionStopped _ | sessionClosed _ | boardFound ..
  | acquisitionFinished _ => .info
  | sequenceGap .. | boardStopsStreaming _ | frameCorrupt _
  | stopUnconfirmed _ => .warn
  | probeCrashed _ | transportFailed .. | producerCrashed => .error

/-- The part of the program that reports an event. -/
def target : Event → String
  | noStartByte _ | noiseBeforeStart _ | frameWhileWaiting .. =>
    "radarlink_native::bridge::exchange"
  | acquisitionStarted _ | acquisitionStopped _ | sequenceGap .. | unsolicitedReply _
  | sessionClosed _ => "radarlink_native::bridge::session"
  | probing .. | boardFound .. | attemptFailed .. | noBoardFound _ | probeCrashed _ =>
    "radarlink_native::bridge::discovery"
  | boardStopsStreaming _ => "radarlink_native::bridge::sim"
  | frameRejected | frameCorrupt _ | transportFailed .. | stopUnconfirmed _ | producerCrashed
  | acquisitionFinished _ => "radarlink_native::acquisition"

def message : Event → String
  | noStartByte bytes => s!"Discarding {bytes} bytes without a start byte"
  | noiseBeforeStart bytes => s!"Discarding {bytes} bytes before start byte"
  | frameWhileWaiting sequence command =>
    s!"Discarding frame {sequence.toNat} while waiting for {command.name} reply"
  | acquisitionStarted identifier => s!"Acquisition started on {identifier}"
  | acquisitionStopped identifier => s!"Acquisition stopped on {identifier}"
  | sequenceGap expected got => s!"Sequence gap: expected {expected.toNat}, got {got.toNat}"
  | unsolicitedReply bytes => s!"Ignoring unsolicited reply ({bytes} bytes)"
  | sessionClosed identifier => s!"Closed session on {identifier}"
  | probing identifier baudRate => s!"Probing {identifier} at {baudRate.toNat} baud"
  | boardFound name firmware identifier baudRate =>
    s!"Found {name} (fw {firmware.text}) on {identifier} at {baudRate.toNat} baud"
  | attemptFailed identifier baudRate cause =>
    s!"No board on {identifier} at {baudRate.toNat} baud: {cause.message}"
  | noBoardFound candidates => s!"No board found on {candidates} candidates"
  | probeCrashed identifier => s!"Probe thread for {identifier} panicked"
  | boardStopsStreaming cause => s!"Simulated board stops streaming: {cause.message}"
  | frameRejected => "Queue stopped, discarding frame"
  | frameCorrupt cause => s!"Dropping corrupt frame: {cause.message}"
  | transportFailed identifier cause => s!"Transport failed on {identifier}: {cause.message}"
  | stopUnconfirmed cause => s!"Board did not confirm stop: {cause.message}"
  | producerCrashed => "Acquisition thread panicked"
  | acquisitionFinished stats =>
    s!"Acquisition finished: {stats.framesReceived} received, " ++
      s!"{stats.framesRejected} rejected, {stats.framesCorrupt} corrupt, " ++
      s!"{stats.framesEvicted} evicted"

end Event

end RadarHost
