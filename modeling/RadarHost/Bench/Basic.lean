import RadarHost.Bench.Board
import RadarHost.Bench.Script
import RadarHost.Queue.Consumers

/-!
# A bench

Surroundings to run dialogues in: ports with simulated boards or scripts, a clock that only reads
move on, a frame queue with prompt consumers, and a record of everything that was asked.
-/

namespace RadarHost

/-- The ports of a bench. -/
inductive Ports
  | boards (ports : List (String × SimulatedBoard))
  | scripts (ports : List ScriptPort)
  deriving Repr

/-- The far end of a line that has been opened. -/
inductive FarEnd
  | board (line : BoardLine)
  | script (steps : List ScriptStep)
  deriving Repr

/-- A line that has been opened, and perhaps closed since. -/
structure Line where
  identifier : String
  isOpen : Bool
  farEnd : FarEnd
  deriving Repr

structure Bench where
  ports : Ports
  clock : Instant
  /-- Every line opened so far, in order. -/
  lines : Array Line
  /-- Permits for gates that are left. -/
  permits : Nat
  /-- Frame queue and consumers; its own clock follows that of the bench. -/
  consumers : Consumers Frame
  stopRequested : Bool
  /-- Counts of the acquisition; its evictions are those of the queue. -/
  counts : AcquisitionStats
  /-- Reports, last first. -/
  log : List Event
  /-- Every port that was to be opened, last first. -/
  openCalls : List (String × UInt32)
  /-- Every successful write, last first. -/
  written : List (String × Bytes)

namespace Bench

/-- A bench on which nothing has happened; its queue runs and has no bound. -/
def ofPorts (ports : Ports) : Bench where
  ports := ports
  clock := 0
  lines := #[]
  permits := 0
  consumers := .ofQueue (.ofMaxCount 0) 0
  stopRequested := false
  counts := .zero
  log := []
  openCalls := []
  written := []

/-- The identifiers of the ports, in order. -/
def portNames (b : Bench) : List String :=
  match b.ports with
  | .boards ports => ports.map (·.1)
  | .scripts ports => ports.map (·.identifier)

/-- Lines that are open. -/
def live (b : Bench) : Nat := b.lines.countP (·.isOpen)

/-- The far end that a port gives a line at a rate. -/
def farEnd (b : Bench) (identifier : String) (baudRate : UInt32) :
    Except TransportError FarEnd :=
  let failed (reason : String) := .error (.openFailed identifier baudRate reason)
  match b.ports with
  | .boards ports =>
    match ports.find? (·.1 == identifier) with
    | some (_, board) => .ok (.board (.opened board baudRate b.clock))
    | none => failed "no such port"
  | .scripts ports =>
    let matching := fun (p : ScriptPort) =>
      p.identifier == identifier && (p.baudRate.isNone || p.baudRate == some baudRate)
    match ports.find? matching with
    | some ⟨_, _, none, steps⟩ => .ok (.script steps)
    | some ⟨_, _, some reason, _⟩ => failed reason
    | none => failed "no such port"

/-- Opens a port; gives the number of the line. -/
def openLine (b : Bench) (identifier : String) (baudRate : UInt32) :
    Except TransportError Nat × Bench :=
  let called := { b with openCalls := (identifier, baudRate) :: b.openCalls }
  match b.farEnd identifier baudRate with
  | .error e => (.error e, called)
  | .ok farEnd =>
    (.ok b.lines.size, { called with lines := b.lines.push ⟨identifier, true, farEnd⟩ })

/-- Puts another far end to a line. -/
def setFarEnd (b : Bench) (line : Nat) (farEnd : FarEnd) : Bench :=
  { b with lines := b.lines.modify line ({ · with farEnd }) }

/-- The far end of an open line. -/
def openEnd? (b : Bench) (line : Nat) : Option (String × FarEnd) :=
  match b.lines[line]? with
  | some ⟨identifier, true, farEnd⟩ => some (identifier, farEnd)
  | _ => none

/-- Writes to a line. -/
def write (b : Bench) (line : Nat) (bytes : Bytes) : Except TransportError Unit × Bench :=
  match b.openEnd? line with
  | none => (.error .closed, b)
  | some (identifier, .board l) =>
    (.ok (), { b.setFarEnd line (.board (l.write b.clock bytes)) with
      written := (identifier, bytes) :: b.written })
  | some (identifier, .script steps) =>
    match Script.write steps with
    | (.error e, steps) => (.error e, b.setFarEnd line (.script steps))
    | (.ok (), steps) =>
      (.ok (), { b.setFarEnd line (.script steps) with
        written := (identifier, bytes) :: b.written })

/-- Lets time pass. -/
def pass (b : Bench) (time : Duration) : Bench :=
  { b with clock := b.clock + time, consumers := b.consumers.step (.pass time) }

/-- Reads a line. -/
def read (b : Bench) (line max : Nat) (timeout : Duration) : ReadAnswer × Bench :=
  match b.openEnd? line with
  | none => (.failed .closed, b)
  | some (_, .board l) =>
    let r := l.read b.clock max timeout
    let b := (b.setFarEnd line (.board r.line)).pass r.elapsed
    (.bytes r.bytes, { b with log := r.events.reverse ++ b.log })
  | some (_, .script steps) =>
    let r := Script.read max b.permits steps
    let b := { b.setFarEnd line (.script r.steps) with permits := r.permits }
    match r.answer with
    | some answer => (answer, b)
    | none => (.bytes [], b.pass timeout)

/-- Closes a line. -/
def close (b : Bench) (line : Nat) : Bench :=
  let shut (l : Line) : Line :=
    if l.isOpen then
      match l.farEnd with
      | .board far => { l with isOpen := false, farEnd := .board far.close }
      | .script _ => { l with isOpen := false }
    else l
  { b with lines := b.lines.modify line shut }

/-- Operates on the queue. -/
def operate (b : Bench) (operation : FrameQueue.Operation Frame) :
    FrameQueue.Outcome Frame × Bench :=
  let (outcome, consumers) := b.consumers.operate operation
  (outcome, { b with consumers })

/-- Whether the queue took what it was offered. -/
def tookOffer : FrameQueue.Outcome Frame → Bool
  | .offered (.accepted _) => true
  | _ => false

/-- The counts of the acquisition. -/
def stats (b : Bench) : AcquisitionStats :=
  { b.counts with framesEvicted := b.consumers.queue.dropped }

/-- How a bench answers. -/
def answer : Dialogue.Surroundings Bench
  | .openLine identifier baudRate, b => b.openLine identifier baudRate
  | .write line bytes, b => b.write line bytes
  | .read line max timeout, b => b.read line max timeout
  | .close line, b => ((), b.close line)
  | .now, b => (b.clock, b)
  | .report event, b => ((), { b with log := event :: b.log })
  | .resizeQueue maxCount, b => ((), (b.operate (.setMaxCount maxCount)).2)
  | .startQueue, b => ((), (b.operate .start).2)
  | .stopQueue, b => ((), (b.operate .stop).2)
  | .offer frame, b =>
    let (outcome, b) := b.operate (.enqueue frame)
    (tookOffer outcome, b)
  | .tally fate, b => ((), { b with counts := b.counts.tally fate })
  | .requestStop, b => ((), { b with stopRequested := true })
  | .stopRequested, b => (b.stopRequested, b)
  | .stats, b => (b.stats, b)

/-- Whether an action is a read for which the line has nothing. -/
def idles (action : Action) (b : Bench) : Bool :=
  match action with
  | .read line max timeout =>
    match b.openEnd? line with
    | none => false
    | some (_, .board l) => (l.read b.clock max timeout).bytes.isEmpty
    | some (_, .script steps) => (Script.read max b.permits steps).answer.isNone
  | _ => false

/-- Carries a dialogue through. -/
def run {α : Type} (b : Bench) (d : Dialogue α) : Dialogue.Ending α × Bench := d.run answer b

end Bench

end RadarHost
