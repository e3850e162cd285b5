import RadarHost.Frame.Basic
import RadarHost.Link.Event

/-!
# Dialogues with the surroundings

The host works by asking its surroundings: for lines, for bytes, for the time, for a place in the
frame queue. A `Dialogue` is such a course of questions, each with what happens on every answer. It
fixes no answers: surroundings are a function that answers an action and changes a state of its own
(`Dialogue.run`). Threads are several dialogues, of which one at a time asks its next question
(`Dialogue.advance`).

A dialogue ends with a value, or breaks off: when a read of its line crashed, or when a loop used up
its budget of turns. `Dialogue.protect` tidies up after one that breaks off.
-/

namespace RadarHost

/-- What a program may ask of its surroundings. -/
inductive Action
  /-- Open the port of an identifier at a rate. -/
  | openLine (identifier : String) (baudRate : UInt32)
  | write (line : Nat) (bytes : Bytes)
  /-- Read at most `max` bytes, waiting up to `timeout` for the first. -/
  | read (line : Nat) (max : Nat) (timeout : Duration)
  | close (line : Nat)
  /-- What time is it? -/
  | now
  | report (event : Event)
  /-- Set the most frames that the queue holds. -/
  | resizeQueue (maxCount : Nat)
  | startQueue
  | stopQueue
  /-- Offer a frame to the queue. -/
  | offer (frame : Frame)
  /-- Count what became of a frame. -/
  | tally (fate : FrameFate)
  /-- Ask the producer to stop. -/
  | requestStop
  /-- Has the producer been asked to stop? -/
  | stopRequested
  /-- The counts so far. -/
  | stats
  deriving Repr

/-- Whether an action reads a line. -/
def Action.isRead : Action → Bool
  | read .. => true
  | _ => false

/-- The answer to a read. -/
inductive ReadAnswer
  /-- What arrived in time; nothing if nothing did. -/
  | bytes (bytes : Bytes)
  | failed (error : TransportError)
  /-- The reading thread crashed. -/
  | crashed
  deriving DecidableEq, Repr

/-- What answers an action. -/
abbrev Action.Answer : Action → Type
  | openLine .. => Except TransportError Nat
  | write .. => Except TransportError Unit
  | read .. => ReadAnswer
  | now => Instant
  | offer _ | stopRequested => Bool
  | stats => AcquisitionStats
  | close _ | report _ | resizeQueue _ | startQueue | stopQueue | tally _ | requestStop => Unit

/-- Why a dialogue broke off. -/
inductive Breakdown
  /-- A read crashed. -/
  | crashed
  /-- A loop took all the turns it was given. -/
  | exhausted
  deriving DecidableEq, Repr

/-- A course of questions that ends with an `α`. -/
inductive Dialogue (α : Type) : Type
  | done (value : α)
  | broken (why : Breakdown)
  | ask (action : Action) (next : action.Answer → Dialogue α)

namespace Dialogue

variable {α β σ : Type}

/-- One dialogue after another. -/
protected def bind : Dialogue α → (α → Dialogue β) → Dialogue β
  | done value, f => f value
  | broken why, _ => broken why
  | ask action next, f => ask action fun answer => (next answer).bind f

instance : Monad Dialogue where
  pure := done
  bind := Dialogue.bind

/-- A single question. -/
def perform (action : Action) : Dialogue action.Answer := ask action done

/-- Reports events in order. -/
def reportAll : List Event → Dialogue Unit
  | [] => done ()
  | event :: rest => ask (.report event) fun _ => reportAll rest

/-- Takes turns until one of them ends with a value; at most `budget` turns. -/
def loop (turn : σ → Dialogue (σ ⊕ α)) : (budget : Nat) → σ → Dialogue α
  | 0, _ => broken .exhausted
  | budget + 1, s => (turn s).bind fun
    | .inl s => loop turn budget s
    | .inr value => done value

/-- A dialogue that is followed by another one if it breaks off. -/
def protect (cleanup : Dialogue Unit) : Dialogue α → Dialogue α
  | done value => done value
  | broken why => cleanup.bind fun _ => broken why
  | ask action next => ask action fun answer => protect cleanup (next answer)

/-! ## Surroundings -/

/-- What answers actions: a function of the action and a state. -/
abbrev Surroundings (σ : Type) := (action : Action) → σ → action.Answer × σ

/-- How a dialogue ends. -/
abbrev Ending (α : Type) := Except Breakdown α

/-- Carries a dialogue through to its end. -/
def run (answer : Surroundings σ) : Dialogue α → σ → Ending α × σ
  | done value, s => (.ok value, s)
  | broken why, s => (.error why, s)
  | ask action next, s =>
    let (a, s) := answer action s
    (next a).run answer s

/-- Carries a dialogue on until it has ended or its next action would pause it. -/
def runUntil (answer : Surroundings σ) (pauses : Action → σ → Bool) :
    Dialogue α → σ → Dialogue α × σ
  | done value, s => (done value, s)
  | broken why, s => (broken why, s)
  | ask action next, s =>
    if pauses action s then (ask action next, s)
    else
      let (a, s) := answer action s
      (next a).runUntil answer pauses s

/-- Asks a single question, if there is one left. -/
def advance (answer : Surroundings σ) : Dialogue α → σ → Dialogue α × σ
  | done value, s => (done value, s)
  | broken why, s => (broken why, s)
  | ask action next, s =>
    let (a, s) := answer action s
    (next a, s)

/-- Whether a dialogue has come to its end. -/
def ended : Dialogue α → Bool
  | ask .. => false
  | _ => true

/-- Carries several dialogues through, each as a thread of its own: first one question at a time of
the threads that `schedule` names, then the threads in order to their ends. -/
def runThreads (answer : Surroundings σ) (schedule : List Nat) (threads : List (Dialogue α))
    (s : σ) : List (Ending α) × σ :=
  let (threads, s) := schedule.foldl
    (fun (threads, s) i =>
      match threads[i]? with
      | some thread =>
        let (thread, s) := thread.advance answer s
        (threads.set i thread, s)
      | none => (threads, s))
    (threads, s)
  threads.foldr
    (fun thread rest s =>
      let (e, s) := thread.run answer s
      let (es, s) := rest s
      (e :: es, s))
    (fun s => ([], s)) s

end Dialogue

end RadarHost
