import RadarHost.Queue.Basic

/-!
# Consumers that wait for frames

Threads that call for a frame look at the queue; one that has to wait lets go of the queue and is
parked until it is woken, and then looks again. An operation on the queue and the wake-up that
follows it are separate steps, so that other threads may act between them: `wakeOnes` and
`wakeAlls` count the wake-ups that are owed. A parked consumer may also wake for no reason, or
because its time is up.

`Consumers.step` does one such step, whatever the order in which they come. `Consumers.settle` is
one particular order: all owed wake-ups are given, and all who are awake look. A thread that does
not wait is quicker than one that has to wake up: what it does one after the other comes before the
consumers settle (`perform`, `blockingDequeue`), unless it leaves them the time (`operate`).
-/

namespace RadarHost

/-- Where a thread is that has called for a frame. -/
inductive Phase (α : Type)
  /-- It has yet to look at the queue. -/
  | awake (deadline : Option Instant)
  /-- It waits to be woken. -/
  | parked (deadline : Option Instant)
  /-- It has gone, with a frame or without. -/
  | left (frame : Option α)
  deriving DecidableEq, Repr

/-- A queue and the threads that have called for its frames, in the order of their calls. -/
structure Consumers (α : Type) where
  queue : FrameQueue α
  now : Instant
  phases : List (Phase α)
  /-- Wake-ups of one consumer that are still owed. -/
  wakeOnes : Nat
  /-- Wake-ups of all consumers that are still owed. -/
  wakeAlls : Nat
  deriving DecidableEq, Repr

namespace Consumers

variable {α : Type}

/-- A queue that nobody waits for. -/
def ofQueue (queue : FrameQueue α) (now : Instant) : Consumers α := ⟨queue, now, [], 0, 0⟩

/-- A step of some thread, or of the clock. -/
inductive Event (α : Type)
  /-- A thread operates on the queue. -/
  | operate (operation : FrameQueue.Operation α)
  /-- A thread calls for a frame. -/
  | call (timeout : Duration)
  /-- A consumer that is awake looks at the queue. -/
  | look (consumer : Nat)
  /-- An owed wake-up of one reaches a parked consumer. -/
  | wakeOne (consumer : Nat)
  /-- An owed wake-up of one finds nobody parked. -/
  | wakeNobody
  /-- An owed wake-up of all. -/
  | wakeAll
  /-- A parked consumer wakes of itself. -/
  | wake (consumer : Nat)
  /-- Time passes. -/
  | pass (time : Duration)
  deriving DecidableEq, Repr

/-- A phase after a wake-up. -/
def woken : Phase α → Phase α
  | .parked deadline => .awake deadline
  | phase => phase

def isParked : Phase α → Bool
  | .parked _ => true
  | _ => false

/-- How many wake-ups of one an outcome owes. -/
def owesOne : FrameQueue.Outcome α → Nat
  | .offered (.accepted _) => 1
  | _ => 0

/-- How many wake-ups of all an operation owes. -/
def owesAll : FrameQueue.Operation α → Nat
  | .stop => 1
  | _ => 0

/-- One step. A step that cannot be taken changes nothing. -/
def step (s : Consumers α) : Event α → Consumers α
  | .operate operation =>
    let (outcome, queue) := s.queue.apply operation
    { s with
      queue
      wakeOnes := s.wakeOnes + owesOne outcome
      wakeAlls := s.wakeAlls + owesAll operation }
  | .call timeout =>
    { s with phases := s.phases ++ [.awake (Instant.waitEnd? s.now timeout)] }
  | .look i =>
    match s.phases[i]? with
    | some (.awake deadline) =>
      match s.queue.check deadline s.now with
      | (.leave frame, queue) => { s with queue, phases := s.phases.set i (.left frame) }
      | (.wait, queue) => { s with queue, phases := s.phases.set i (.parked deadline) }
    | _ => s
  | .wakeOne i =>
    match s.phases[i]? with
    | some (.parked deadline) =>
      if s.wakeOnes = 0 then s
      else
        { s with wakeOnes := s.wakeOnes - 1, phases := s.phases.set i (.awake deadline) }
    | _ => s
  | .wakeNobody =>
    if s.phases.any isParked then s else { s with wakeOnes := s.wakeOnes - 1 }
  | .wakeAll =>
    if s.wakeAlls = 0 then s
    else { s with wakeAlls := s.wakeAlls - 1, phases := s.phases.map woken }
  | .wake i =>
    match s.phases[i]? with
    | some (.parked deadline) => { s with phases := s.phases.set i (.awake deadline) }
    | _ => s
  | .pass time => { s with now := s.now + time }

/-- Steps in order. -/
def steps (s : Consumers α) (events : List (Event α)) : Consumers α := events.foldl step s

/-! ## Threads that settle -/

/-- Gives an owed wake-up of one to the consumer that has been parked first. -/
def wakeFirst (s : Consumers α) : Consumers α :=
  match s.phases.findIdx? isParked with
  | some i => s.step (.wakeOne i)
  | none => s.step .wakeNobody

/-- Gives all owed wake-ups and lets all who are awake look at the queue. -/
def settle (s : Consumers α) : Consumers α :=
  let s := (List.range s.wakeOnes).foldl (fun s _ => s.wakeFirst) s
  let s := (List.range s.wakeAlls).foldl (fun s _ => s.step .wakeAll) s
  (List.range s.phases.length).foldl (fun s i => s.step (.look i)) s

/-- An operation by a thread that goes on at once, so that wake-ups stay owed; gives its outcome. -/
def perform (s : Consumers α) (operation : FrameQueue.Operation α) :
    FrameQueue.Outcome α × Consumers α :=
  ((s.queue.apply operation).1, s.step (.operate operation))

/-- An operation after which the consumers settle; gives its outcome. -/
def operate (s : Consumers α) (operation : FrameQueue.Operation α) :
    FrameQueue.Outcome α × Consumers α :=
  let (outcome, s) := s.perform operation
  (outcome, s.settle)

/-- Calls for frames by `count` threads, which settle. -/
def callTimes (s : Consumers α) (count : Nat) (timeout : Duration) : Consumers α :=
  ((List.range count).foldl (fun s _ => s.step (.call timeout)) s).settle

/-- The deadline of a parked consumer that has one. -/
def deadline? : Phase α → Option Instant
  | .parked deadline => deadline
  | _ => none

/-- Wakes the parked consumers whose time is up. -/
def wakeDue (s : Consumers α) : Consumers α :=
  (List.range s.phases.length).foldl
    (fun s i =>
      if (s.phases[i]?.bind deadline?).any (· ≤ s.now) then s.step (.wake i) else s) s

/-- Lets the consumers settle and then time pass until an instant; those whose time is up by then
look once more. -/
def passUntil (s : Consumers α) (instant : Instant) : Consumers α :=
  let s := s.settle
  ((s.step (.pass (instant - s.now))).wakeDue).settle

/-- Lets time pass until every parked consumer with a deadline has left. -/
def expire (s : Consumers α) : Consumers α :=
  let s := s.settle
  s.passUntil ((s.phases.filterMap deadline?).foldl max s.now)

/-- What a thread got; nothing yet counts as nothing. -/
def got : Phase α → Option α
  | .left frame => frame
  | _ => none

/-- Waits for all threads to leave; gives what they got, in the order of their calls. -/
def join (s : Consumers α) : List (Option α) × Consumers α :=
  let s := s.expire
  (s.phases.map got, { s with phases := [] })

/-- A call for a frame by the thread that operates on the queue. It looks before any consumer does
that it has woken; if it has to wait, the consumers settle, and nothing is queued meanwhile. A wait
without a deadline passes no time. -/
def blockingDequeue (s : Consumers α) (timeout : Duration) : Option α × Consumers α :=
  let deadline := Instant.waitEnd? s.now timeout
  match s.queue.check deadline s.now with
  | (.leave frame, queue) => (frame, { s with queue })
  | (.wait, _) => (none, s.passUntil (deadline.getD s.now))

end Consumers

end RadarHost
