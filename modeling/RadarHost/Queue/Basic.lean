import RadarHost.Time

/-!
# The frame queue

A queue hands frames over in the order in which it accepted them. When it is full the oldest frame
is evicted, so that what is taken is always the most recent. A stopped queue hands frames back and
gives none out. Every operation here is one step that no other can interrupt; what waits and what
wakes is in `RadarHost.Queue.Consumers`.
-/

namespace RadarHost

structure FrameQueue (α : Type) where
  /-- Queued frames, oldest first. -/
  frames : List α
  /-- Most frames that are queued; zero for no bound. -/
  maxCount : Nat
  running : Bool
  /-- Frames evicted to make room since the queue was made. -/
  dropped : Nat
  deriving DecidableEq, Repr

namespace FrameQueue

variable {α : Type}

/-- A running queue without frames. -/
def ofMaxCount (maxCount : Nat) : FrameQueue α := ⟨[], maxCount, true, 0⟩

/-- How many frames have to go before `extra` more fit. -/
def excess (q : FrameQueue α) (extra : Nat) : Nat :=
  if q.maxCount = 0 then 0 else q.frames.length + extra - q.maxCount

/-- Evicts the oldest frames until `extra` more fit. -/
def makeRoom (q : FrameQueue α) (extra : Nat) : List α × FrameQueue α :=
  let evicted := q.frames.take (q.excess extra)
  (evicted,
    { q with
      frames := q.frames.drop (q.excess extra)
      dropped := q.dropped + evicted.length })

/-- What becomes of a frame that is offered. -/
inductive Offer (α : Type)
  /-- It is queued, and older frames were evicted for it. -/
  | accepted (evicted : List α)
  /-- The queue is stopped and hands it back. -/
  | refused (frame : α)
  deriving DecidableEq, Repr

/-- Offers a frame. -/
def enqueue (q : FrameQueue α) (frame : α) : Offer α × FrameQueue α :=
  if q.running then
    let (evicted, q) := q.makeRoom 1
    (.accepted evicted, { q with frames := q.frames ++ [frame] })
  else (.refused frame, q)

/-- Takes the oldest frame if there is one and the queue runs. -/
def dequeue (q : FrameQueue α) : Option α × FrameQueue α :=
  if q.running then (q.frames.head?, { q with frames := q.frames.tail }) else (none, q)

/-- Bounds the queue and evicts what is too much; gives the evicted frames. -/
def setMaxCount (q : FrameQueue α) (maxCount : Nat) : List α × FrameQueue α :=
  makeRoom { q with maxCount } 0

/-- Drops all frames, which are not counted as evicted; gives them. -/
def clear (q : FrameQueue α) : List α × FrameQueue α := (q.frames, { q with frames := [] })

/-- Lets the queue run; says whether that is a change. -/
def start (q : FrameQueue α) : Bool × FrameQueue α := (!q.running, { q with running := true })

/-- Stops the queue; says whether that is a change. -/
def stop (q : FrameQueue α) : Bool × FrameQueue α := (q.running, { q with running := false })

/-- What a blocking consumer finds when it looks at the queue. -/
inductive Check (α : Type)
  /-- It leaves, with a frame or without. -/
  | leave (frame : Option α)
  /-- It has to wait. -/
  | wait
  deriving DecidableEq, Repr

/-- A look at the queue by a consumer that waits until `deadline`. That the queue is stopped comes
first, then a frame, and only then the time. -/
def check (q : FrameQueue α) (deadline : Option Instant) (now : Instant) :
    Check α × FrameQueue α :=
  if q.running then
    match q.frames with
    | frame :: rest => (.leave (some frame), { q with frames := rest })
    | [] =>
      match deadline with
      | none => (.wait, q)
      | some d => if d ≤ now then (.leave none, q) else (.wait, q)
  else (.leave none, q)

/-! ## Operations as values -/

/-- What any thread may do to a queue without waiting. -/
inductive Operation (α : Type)
  | enqueue (frame : α)
  | dequeue
  | setMaxCount (maxCount : Nat)
  | clear
  | start
  | stop
  deriving DecidableEq, Repr

/-- What an operation gives. -/
inductive Outcome (α : Type)
  | offered (offer : Offer α)
  | taken (frame : Option α)
  /-- Frames that were evicted or cleared. -/
  | discarded (frames : List α)
  /-- Whether the queue changed between running and stopped. -/
  | switched (changed : Bool)
  deriving DecidableEq, Repr

/-- Carries out an operation. -/
def apply (q : FrameQueue α) : Operation α → Outcome α × FrameQueue α
  | .enqueue frame => let (o, q) := q.enqueue frame; (.offered o, q)
  | .dequeue => let (f, q) := q.dequeue; (.taken f, q)
  | .setMaxCount n => let (d, q) := q.setMaxCount n; (.discarded d, q)
  | .clear => let (d, q) := q.clear; (.discarded d, q)
  | .start => let (c, q) := q.start; (.switched c, q)
  | .stop => let (c, q) := q.stop; (.switched c, q)

end FrameQueue

end RadarHost
