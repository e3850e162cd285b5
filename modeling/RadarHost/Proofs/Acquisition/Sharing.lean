import RadarHost.Acquisition.Producer
import RadarHost.Bench.Basic
import RadarHost.Proofs.Link.Course
import RadarHost.Proofs.Queue.Ledger

/-!
# A queue shared with other threads

The producer of an acquisition has the frame queue for itself only during the single steps that it
asks for. Between any two of its questions other threads may stop the queue, start it again, bound
it, clear it, take frames, wait for frames and be woken, as they please (`Others`): all that they
cannot do is to offer frames. `beside` are surroundings in which they do.

Whatever they do, the course of the producer tells what the queue was offered and what it took, and
what was counted (`Along.counts_eq`, `Along.offered_eq`).
-/

namespace RadarHost

open Dialogue

/-- The operation that an action carries out on the queue. -/
def Action.operation? : Action → Option (FrameQueue.Operation Frame)
  | .resizeQueue maxCount => some (.setMaxCount maxCount)
  | .startQueue => some .start
  | .stopQueue => some .stop
  | .offer frame => some (.enqueue frame)
  | _ => none

/-- What the producer of an acquisition shares with other threads. -/
structure Shared where
  /-- The frame queue, and who waits for its frames. -/
  consumers : Consumers Frame
  counts : AcquisitionStats
  /-- Every step that anyone has taken on the queue, in order. -/
  record : List (Consumers.Event Frame)

namespace Shared

/-- The beginning of an acquisition. -/
def ofConsumers (consumers : Consumers Frame) : Shared := ⟨consumers, .zero, []⟩

/-- Steps on the queue. -/
def steps (shared : Shared) (events : List (Consumers.Event Frame)) : Shared :=
  { shared with
    consumers := shared.consumers.steps events
    record := shared.record ++ events }

/-- What an action of the producer does. -/
def carry (shared : Shared) : Action → Shared
  | .resizeQueue maxCount => shared.steps [.operate (.setMaxCount maxCount)]
  | .startQueue => shared.steps [.operate .start]
  | .stopQueue => shared.steps [.operate .stop]
  | .offer frame => shared.steps [.operate (.enqueue frame)]
  | .tally fate => { shared with counts := shared.counts.tally fate }
  | _ => shared

/-- An action takes the steps on the queue that its operation is, and no others. -/
theorem consumers_carry (shared : Shared) (action : Action) :
    (shared.carry action).consumers =
        shared.consumers.steps (action.operation?.toList.map .operate) ∧
      (shared.carry action).record = shared.record ++ action.operation?.toList.map .operate := by
  cases action <;> exact ⟨rfl, by first | rfl | exact (List.append_nil _).symm⟩

/-- The answer to an action, which is the queue's if the action asks for one. -/
def reply (shared : Shared) : (action : Action) → action.Answer → action.Answer
  | .offer frame, _ => Bench.tookOffer (shared.consumers.queue.apply (.enqueue frame)).1
  | .stats, _ => { shared.counts with framesEvicted := shared.consumers.queue.dropped }
  | _, answer => answer

/-- An answer that was given stands. -/
theorem reply_reply (shared : Shared) (action : Action) (answer : action.Answer) :
    shared.reply action (shared.reply action answer) = shared.reply action answer := by
  cases action <;> rfl

end Shared

/-- What other threads do before each question of the producer. They do not offer frames. -/
structure Others (σ : Type) where
  steps : σ → Shared → List (Consumers.Event Frame)
  offerless : ∀ world shared, ∀ event ∈ steps world shared, event.offered? = none

/-- Others who do nothing. -/
def Acquisition.nobody {σ : Type} : Others σ where
  steps _ _ := []
  offerless _ _ := List.forall_mem_nil _

variable {α σ : Type}

/-- Surroundings with a queue that is shared with others. -/
def beside (answer : Surroundings σ) (others : Others σ) : Surroundings (σ × Shared) :=
  fun action w =>
    let shared := w.2.steps (others.steps w.1 w.2)
    (shared.reply action (answer action w.1).1, (answer action w.1).2, shared.carry action)

namespace Dialogue

/-- The frame that an exchange offers, and whether the queue took it. -/
def Exchange.offer? : Exchange → Option (Frame × Bool)
  | ⟨.offer frame, took⟩ => some (frame, took)
  | _ => none

/-- What an exchange counts. -/
def Exchange.tally? : Exchange → Option FrameFate
  | ⟨.tally fate, _⟩ => some fate
  | _ => none

/-- The frames that are offered in a course, in order, each with whether the queue took it. -/
def offers (course : List Exchange) : List (Frame × Bool) := course.filterMap Exchange.offer?

/-- What is counted in a course, in order. -/
def tallies (course : List Exchange) : List FrameFate := course.filterMap Exchange.tally?

@[simp] theorem offers_append (course later : List Exchange) :
    offers (course ++ later) = offers course ++ offers later := List.filterMap_append

@[simp] theorem tallies_append (course later : List Exchange) :
    tallies (course ++ later) = tallies course ++ tallies later := List.filterMap_append

end Dialogue

/-! ## Courses beside others -/

/-- The exchanges of a course lead from what was shared to what is shared after them, while others
take their steps before each of them. -/
inductive Along : Shared → List Exchange → Shared → Prop
  | nil (shared : Shared) : Along shared [] shared
  | cons {shared shared' : Shared} {events : List (Consumers.Event Frame)} {x : Exchange}
    {course : List Exchange} (offerless : ∀ event ∈ events, event.offered? = none)
    (honest : (shared.steps events).reply x.1 x.2 = x.2)
    (h : Along ((shared.steps events).carry x.1) course shared') :
    Along shared (x :: course) shared'

theorem along_course (answer : Surroundings σ) (others : Others σ) (d : Dialogue α) (world : σ)
    (shared : Shared) :
    Along shared (d.course (beside answer others) (world, shared))
      (d.run (beside answer others) (world, shared)).2.2 := by
  induction d generalizing world shared with
  | done value => exact .nil shared
  | broken why => exact .nil shared
  | ask action next ih =>
    exact .cons (others.offerless world shared) (Shared.reply_reply _ action _) (ih _ _ _)

theorem along_progress (answer : Surroundings σ) (others : Others σ) (questions : Nat)
    (d : Dialogue α) (world : σ) (shared : Shared) :
    Along shared (d.progressCourse (beside answer others) questions (world, shared))
      (d.progress (beside answer others) questions (world, shared)).2.2 := by
  induction questions generalizing d world shared with
  | zero => exact .nil shared
  | succ questions ih =>
    cases d with
    | done value => exact ih (.done value) world shared
    | broken why => exact ih (.broken why) world shared
    | ask action next =>
      exact .cons (others.offerless world shared) (Shared.reply_reply _ action _) (ih _ _ _)

section

variable {shared shared' : Shared} {course : List Exchange}

theorem Along.concat {events : List (Consumers.Event Frame)} {x : Exchange}
    (h : Along shared course shared') (offerless : ∀ event ∈ events, event.offered? = none)
    (honest : (shared'.steps events).reply x.1 x.2 = x.2) :
    Along shared (course ++ [x]) ((shared'.steps events).carry x.1) := by
  induction h with
  | nil shared => exact .cons offerless honest (.nil _)
  | cons offerless' honest' h ih => exact .cons offerless' honest' (ih honest)

theorem AcquisitionStats.foldl_tally (counts : AcquisitionStats) (fates : List FrameFate) :
    fates.foldl tally counts =
      { counts with
        framesReceived := counts.framesReceived + fates.count .received
        framesRejected := counts.framesRejected + fates.count .rejected
        framesCorrupt := counts.framesCorrupt + fates.count .corrupt } := by
  induction fates generalizing counts with
  | nil => rfl
  | cons fate fates ih =>
    rw [List.foldl_cons, ih]
    cases fate <;> simp [tally, Nat.add_comm, Nat.add_left_comm]

/-- The counts are those of the course. -/
theorem Along.counts_eq (h : Along shared course shared') :
    shared'.counts = (tallies course).foldl AcquisitionStats.tally shared.counts := by
  induction h with
  | nil => rfl
  | @cons shared shared' events x course offerless honest h ih =>
    rw [ih]
    obtain ⟨action, answer⟩ := x
    cases action <;> rfl

theorem tookOffer_enqueue (q : FrameQueue Frame) (frame : Frame) :
    Bench.tookOffer (q.apply (.enqueue frame)).1 = q.running := by
  simp only [FrameQueue.apply, FrameQueue.enqueue]
  cases q.running <;> rfl

/-- The steps that an action of the producer takes on the queue offer what the action offers. -/
theorem carry_offered {x : Exchange} (honest : shared.reply x.1 x.2 = x.2) :
    ∃ events, (shared.carry x.1).record = shared.record ++ events ∧
      (shared.carry x.1).consumers = shared.consumers.steps events ∧
      shared.consumers.offered events = x.offer?.toList := by
  obtain ⟨hconsumers, hrecord⟩ := shared.consumers_carry x.1
  refine ⟨_, hrecord, hconsumers, ?_⟩
  obtain ⟨action, answer⟩ := x
  cases action with
  | offer frame =>
    obtain rfl : shared.consumers.queue.running = answer :=
      (tookOffer_enqueue _ frame).symm.trans honest
    rfl
  | _ => rfl

/-- The queue is offered what the course says, and takes of it what the course says. -/
theorem Along.offered_eq (h : Along shared course shared') :
    ∃ events, shared'.record = shared.record ++ events ∧
      shared'.consumers = shared.consumers.steps events ∧
      shared.consumers.offered events = offers course := by
  induction h with
  | nil shared => exact ⟨[], (List.append_nil _).symm, rfl, rfl⟩
  | @cons shared shared' events x course offerless honest h ih =>
    obtain ⟨own, hrecord, hconsumers, hoffered⟩ := carry_offered honest
    obtain ⟨later, hrecord', hconsumers', hoffered'⟩ := ih
    refine ⟨events ++ (own ++ later), ?_, ?_, ?_⟩
    · rw [hrecord', hrecord, Shared.steps, List.append_assoc, List.append_assoc]
    · rw [hconsumers', hconsumers, Shared.steps, Consumers.steps_append, Consumers.steps_append]
    · rw [hconsumers] at hoffered'
      rw [Consumers.offered_append, Consumers.offered_of_forall _ offerless, List.nil_append,
        Consumers.offered_append]
      show (shared.steps events).consumers.offered own ++ _ = _
      rw [hoffered]
      show x.offer?.toList ++ ((shared.steps events).consumers.steps own).offered later = _
      rw [hoffered', offers, offers, List.filterMap_cons]
      cases x.offer? <;> rfl

/-- The steps that are on record since the beginning lead to what the queue is. -/
theorem Along.consumers_eq {consumers : Consumers Frame}
    (h : Along (.ofConsumers consumers) course shared) :
    shared.consumers = consumers.steps shared.record ∧
      consumers.offered shared.record = offers course := by
  obtain ⟨events, hrecord, hconsumers, hoffered⟩ := h.offered_eq
  obtain rfl : shared.record = events := hrecord
  exact ⟨hconsumers, hoffered⟩

/-- A course that counts as received what the queue took of its offers counts what the queue
accepted. -/
theorem Along.received_eq {consumers : Consumers Frame}
    (h : Along (.ofConsumers consumers) course shared)
    (ht : (tallies course).count .received = (offers course).countP Prod.snd) :
    shared.counts.framesReceived = (consumers.ledger shared.record).accepted.length := by
  have hcounts := h.counts_eq
  rw [AcquisitionStats.foldl_tally] at hcounts
  rw [hcounts, Consumers.accepted_ledger, h.consumers_eq.2, List.length_map,
    ← List.countP_eq_length_filter, ← ht]
  exact Nat.zero_add _

theorem Along.append {mid : Shared} {later : List Exchange} (h : Along shared course mid)
    (h' : Along mid later shared') : Along shared (course ++ later) shared' := by
  induction h with
  | nil => exact h'
  | cons offerless honest h ih => exact .cons offerless honest (ih h')

theorem Along.exists_of_append {later : List Exchange}
    (h : Along shared (course ++ later) shared') :
    ∃ mid, Along shared course mid ∧ Along mid later shared' := by
  induction course generalizing shared with
  | nil => exact ⟨shared, .nil shared, h⟩
  | cons x course ih =>
    cases h with
    | cons offerless honest h =>
      obtain ⟨mid, hfirst, hlater⟩ := ih h
      exact ⟨mid, .cons offerless honest hfirst, hlater⟩

/-- A course that ends by stopping the queue leaves it stopped. -/
theorem Along.stopped (h : Along shared (course ++ [⟨.stopQueue, ()⟩]) shared') :
    shared'.consumers.queue.running = false := by
  obtain ⟨mid, -, hstop⟩ := h.exists_of_append
  cases hstop with
  | cons offerless honest h =>
    cases h
    rfl

end

end RadarHost
