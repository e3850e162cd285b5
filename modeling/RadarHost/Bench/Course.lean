import RadarHost.Acquisition.Producer
import RadarHost.Bench.Basic
import RadarHost.Discovery.Parallel

/-!
# A course of work on a bench

Someone who holds a session, or an acquisition that holds it, and takes one step after another:
commands, reads, acquisitions, operations on the queue. The producer of an acquisition is a thread
that is carried on until a read has found nothing on its line, and rests before it reads again.
-/

namespace RadarHost

/-- A bench, and what is held on it. -/
structure Course where
  bench : Bench
  session : Option Session
  /-- The producer of the acquisition, carried on as far as it got. -/
  producer : Option (Dialogue Session)

namespace Course

/-- More turns than any loop takes. -/
def budget : Nat := 0x4000000000000000

/-- A step of the course. -/
inductive Step
  | start
  | stop
  | read (timeout : Duration)
  | setMaxPayload (max : Nat)
  | session
  | close
  | closeSession
  | dropSession
  | acquire (config : AcquisitionConfig)
  /-- Gives a permit to a gate; then waits for the consumers if asked to. -/
  | release (join : Bool)
  | stats
  | acquireStop
  /-- Lets go of the acquisition and of its session, if there is one. -/
  | acquireDrop
  | dequeue
  /-- Takes frames until there is none. -/
  | drain
  | queueStart
  | queueStop
  | queueMax (max : Nat)
  | queueClear
  /-- Calls for frames by some threads. -/
  | consumers (count : Nat)
  /-- Waits for those threads. -/
  | join
  deriving Repr

/-- What a step gives. -/
inductive Result
  | ok
  | noSession
  | noAcquisition
  | failed (error : LinkError)
  | frame (frame : Option Frame)
  | session (session : Option Session)
  | stats (stats : AcquisitionStats) (running : Bool)
  | changed (changed : Bool)
  | sequences (sequences : List (Option UInt32))
  /-- A read crashed in the thread that takes the steps. -/
  | broken (why : Breakdown)

/-- Carries the producer on until a read has found nothing on its line and it is about to read
again. -/
def carryOn (c : Course) : Course :=
  match c.producer with
  | none => c
  | some producer =>
    let (producer, bench) := producer.runUntil Bench.answer Bench.idles c.bench
    let (producer, bench) := producer.advance Bench.answer bench
    let (producer, bench) := producer.runUntil Bench.answer (fun action _ => action.isRead) bench
    { c with bench, producer := some producer }

/-- Does something with the session, which stays held. -/
def withSession {α : Type} (c : Course) (work : Session → Dialogue (α × Session))
    (result : α → Result) : Result × Course :=
  match c.session with
  | none => (.noSession, c)
  | some session =>
    match c.bench.run (work session) with
    | (.ok (a, session), bench) => (result a, { c with bench, session := some session })
    | (.error why, bench) => (.broken why, { c with bench, session := none })

/-- Gives the session up. -/
def giveUp (c : Course) (last : Session → Dialogue Unit) : Result × Course :=
  match c.session with
  | none => (.noSession, c)
  | some session =>
    (.ok, { c with bench := (c.bench.run (last session)).2, session := none })

/-- The result of a command. -/
def commandResult : Except LinkError Unit → Result
  | .ok () => .ok
  | .error e => .failed e

/-- The result of reading a frame. -/
def frameResult : Except LinkError (Option Frame) → Result
  | .ok frame => .frame frame
  | .error e => .failed e

/-- Starts an acquisition with the session. -/
def acquire (c : Course) (config : AcquisitionConfig) : Result × Course :=
  match c.session with
  | none => (.noSession, c)
  | some session =>
    let bench := { c.bench with stopRequested := false, counts := .zero }
    match bench.run (Acquisition.start budget config session) with
    | (.ok (.ok session), bench) =>
      let producer := Acquisition.produce budget config.readTimeout session
      (.ok, carryOn { bench, session := none, producer := some producer })
    | (.ok (.error e), bench) => (.failed e, { c with bench, session := none })
    | (.error why, bench) => (.broken why, { c with bench, session := none })

/-- Asks the producer to stop and waits for its ending, with which the acquisition is ended. -/
def shutDown {α : Type} (c : Course) (producer : Dialogue Session)
    (last : Option (Dialogue.Ending Session) → Dialogue α) : Dialogue.Ending α × Course :=
  let (_, bench) := c.bench.run (Dialogue.perform .requestStop)
  let (ending, bench) := bench.run producer
  let (result, bench) := bench.run (last (some ending))
  (result, { c with bench, producer := none })

/-- Waits for the consumers. -/
def joinConsumers (c : Course) : Result × Course :=
  let (frames, consumers) := c.bench.consumers.join
  (.sequences (frames.map (·.map (·.sequence))), { c with bench := { c.bench with consumers } })

/-- Operates on the queue. -/
def operate (c : Course) (operation : FrameQueue.Operation Frame) :
    FrameQueue.Outcome Frame × Course :=
  let (outcome, bench) := c.bench.operate operation
  (outcome, { c with bench })

/-- Takes frames until there is none, at most `fuel` of them. -/
def drainFrames : (fuel : Nat) → List (Option UInt32) → Course → List (Option UInt32) × Course
  | 0, before, c => (before.reverse, c)
  | fuel + 1, before, c =>
    match c.operate .dequeue with
    | (.taken (some frame), c) => drainFrames fuel (some frame.sequence :: before) c
    | (_, c) => (before.reverse, c)

/-- The result of an operation on the queue. -/
def outcomeResult : FrameQueue.Outcome Frame → Result
  | .taken frame => .frame frame
  | .switched changed => .changed changed
  | _ => .ok

/-- Operates on the queue and gives the result. -/
def queueStep (c : Course) (operation : FrameQueue.Operation Frame) : Result × Course :=
  let (outcome, c) := c.operate operation
  (outcomeResult outcome, c)

/-- Takes one step. -/
def take (c : Course) : Step → Result × Course
  | .start => c.withSession (·.startAcquisition budget) commandResult
  | .stop => c.withSession (·.stopAcquisition budget) commandResult
  | .read timeout => c.withSession (·.readFrame budget timeout) frameResult
  | .setMaxPayload max =>
    c.withSession (fun s => return ((), s.setMaxFramePayload max)) fun _ => .ok
  | .session => c.withSession (fun s => return (s, s)) fun s => .session (some s)
  | .close => c.withSession (fun s => return ((), ← s.close)) fun _ => .ok
  | .closeSession => c.giveUp fun s => Session.closeAny (some s)
  | .dropSession => c.giveUp Session.discard
  | .acquire config => c.acquire config
  | .release join =>
    let c := carryOn { c with bench := { c.bench with permits := c.bench.permits + 1 } }
    if join then c.joinConsumers else (.ok, c)
  | .stats =>
    match c.producer with
    | none => (.noAcquisition, c)
    | some producer => (.stats c.bench.stats (!producer.ended), c)
  | .acquireStop =>
    match c.producer with
    | none => (.noAcquisition, c)
    | some producer =>
      let (stopped, c) := c.shutDown producer (Acquisition.stop budget)
      let session := stopped.toOption.join
      (.session session, { c with session })
  | .acquireDrop =>
    match c.producer with
    | none => (.ok, c)
    | some producer => (.ok, (c.shutDown producer (Acquisition.drop budget)).2)
  | .dequeue => c.queueStep .dequeue
  | .drain =>
    let (sequences, c) := drainFrames (c.bench.consumers.queue.frames.length + 1) [] c
    (.sequences sequences, c)
  | .queueStart => c.queueStep .start
  | .queueStop => c.queueStep .stop
  | .queueMax max => c.queueStep (.setMaxCount max)
  | .queueClear => c.queueStep .clear
  | .consumers count =>
    (.ok, { c with bench :=
      { c.bench with consumers := c.bench.consumers.callTimes count 0 } })
  | .join => c.joinConsumers

/-- Gives up all that is held. -/
def wind (c : Course) : Course :=
  let c := match c.producer with
    | none => c
    | some producer => (c.shutDown producer (Acquisition.drop budget)).2
  (c.giveUp Session.discard).2

end Course

end RadarHost
