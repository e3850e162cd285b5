import Mathlib.Data.List.Basic
import RadarHost.Proofs.Queue.Steps

/-!
# What becomes of the frames of a queue

A ledger beside a run of a queue notes the frames that the queue accepts, and those that leave it
with what became of them: handed out, evicted or cleared (`entry`, `ledger`). Frames leave at the
front only, so that what was queued and was accepted is what left, in the order in which it did, and
then what is queued, and every eviction is counted: a step conserves that (`conserved_step`), and so
does every run, whatever the queue held before it and had evicted (`conserved_steps`). The ledger of
a queue from its making on stays balanced (`balanced_steps`), and nothing is lost, handed out twice
or out of order (`accounted_steps`).
-/

namespace RadarHost

/-- What becomes of a frame that leaves a queue. -/
inductive Fate
  /-- It is handed to a thread that does not wait. -/
  | taken
  /-- It is handed to a consumer. -/
  | served (consumer : Nat)
  | evicted
  | cleared
  deriving DecidableEq, Repr

def Fate.isHandedOut : Fate → Bool
  | taken | served _ => true
  | _ => false

structure Ledger (α : Type) where
  /-- The frames that were accepted, in order. -/
  accepted : List α
  /-- The frames that left, in order, and what became of each. -/
  gone : List (Fate × α)
  deriving DecidableEq, Repr

namespace Ledger

variable {α : Type}

def empty : Ledger α := ⟨[], []⟩

/-- The entries of one ledger, and then those of another. -/
def append (l m : Ledger α) : Ledger α := ⟨l.accepted ++ m.accepted, l.gone ++ m.gone⟩

/-- The frames that met one of some fates, in the order in which they left. -/
def withFate (l : Ledger α) (fates : Fate → Bool) : List α :=
  (l.gone.filter fun x => fates x.1).map Prod.snd

def handedOut (l : Ledger α) : List α := l.withFate Fate.isHandedOut

/-- The frames that were handed to one consumer. -/
def servedTo (l : Ledger α) (consumer : Nat) : List α := l.withFate (· == .served consumer)

def evicted (l : Ledger α) : List α := l.withFate (· == .evicted)

def cleared (l : Ledger α) : List α := l.withFate (· == .cleared)

/-- The entries of the frames that came after the first `earlier` ones. Frames leave in the order in
which they came. -/
def since (l : Ledger α) (earlier : Nat) : Ledger α := ⟨l.accepted, l.gone.drop earlier⟩

theorem append_empty (l : Ledger α) : l.append empty = l := by simp [append, empty]

theorem append_assoc (l m n : Ledger α) : (l.append m).append n = l.append (m.append n) := by
  simp [append]

theorem withFate_append (l m : Ledger α) (fates : Fate → Bool) :
    (l.append m).withFate fates = l.withFate fates ++ m.withFate fates := by
  simp [withFate, append]

theorem withFate_map (accepted frames : List α) (fate : Fate) (fates : Fate → Bool) :
    (⟨accepted, frames.map (fate, ·)⟩ : Ledger α).withFate fates =
      if fates fate then frames else [] := by
  cases hf : fates fate with
  | true => simp [withFate, List.filter_map, Function.comp_def, hf]
  | false => simp [withFate, List.filter_map, Function.comp_def, hf]

theorem withFate_sublist (l : Ledger α) (fates : Fate → Bool) :
    (l.withFate fates).Sublist (l.gone.map Prod.snd) := List.filter_sublist.map _

/-- Who left was handed out, evicted or cleared. -/
theorem gone_perm (l : Ledger α) :
    (l.gone.map Prod.snd).Perm (l.handedOut ++ l.evicted ++ l.cleared) := by
  obtain ⟨accepted, gone⟩ := l
  induction gone with
  | nil => exact .nil
  | cons x gone ih =>
    obtain ⟨fate, frame⟩ := x
    cases fate with
    | taken => exact ih.cons frame
    | served consumer => exact ih.cons frame
    | evicted =>
      refine (ih.cons frame).trans ?_
      rw [List.append_assoc, List.append_assoc]
      exact List.perm_middle.symm
    | cleared => exact (ih.cons frame).trans List.perm_middle.symm

end Ledger

/-! ## Operations -/

namespace FrameQueue

variable {α : Type}

/-- What an operation and its outcome put into the ledger. -/
def entry : Operation α → Outcome α → Ledger α
  | .enqueue frame, .offered (.accepted evicted) => ⟨[frame], evicted.map (.evicted, ·)⟩
  | .dequeue, .taken frame => ⟨[], frame.toList.map (.taken, ·)⟩
  | .setMaxCount _, .discarded frames => ⟨[], frames.map (.evicted, ·)⟩
  | .clear, .discarded frames => ⟨[], frames.map (.cleared, ·)⟩
  | _, _ => .empty

/-- A bounded queue holds no more frames than its bound. -/
def Bounded (q : FrameQueue α) : Prop := q.maxCount ≠ 0 → q.frames.length ≤ q.maxCount

theorem makeRoom_frames (q : FrameQueue α) (extra : Nat) :
    (q.makeRoom extra).1 ++ (q.makeRoom extra).2.frames = q.frames :=
  List.take_append_drop _ _

theorem length_makeRoom_add_le (q : FrameQueue α) {extra : Nat} (hm : q.maxCount ≠ 0)
    (he : extra ≤ q.maxCount) : (q.makeRoom extra).2.frames.length + extra ≤ q.maxCount := by
  simp only [makeRoom, List.length_drop, excess, if_neg hm]
  omega

/-- What was queued and is accepted is what leaves and is queued. -/
theorem frames_apply (q : FrameQueue α) (operation : Operation α) :
    q.frames ++ (entry operation (q.apply operation).1).accepted =
      (entry operation (q.apply operation).1).gone.map Prod.snd ++
        (q.apply operation).2.frames := by
  cases operation with
  | enqueue frame =>
    simp only [apply, enqueue]
    split
    · simp only [entry, List.map_map, Function.comp_def, List.map_id']
      rw [← List.append_assoc, makeRoom_frames]
    · simp [entry, Ledger.empty]
  | dequeue =>
    simp only [apply, dequeue]
    split
    · cases hf : q.frames <;> simp [entry]
    · simp [entry]
  | setMaxCount maxCount =>
    simp only [apply, entry, setMaxCount, List.map_map, Function.comp_def, List.map_id',
      List.append_nil]
    exact (makeRoom_frames { q with maxCount } 0).symm
  | clear =>
    simp only [apply, entry, clear, List.map_map, Function.comp_def, List.map_id']
  | start => simp [apply, entry, start, Ledger.empty]
  | stop => simp [apply, entry, stop, Ledger.empty]

theorem Bounded.apply {q : FrameQueue α} (h : q.Bounded) (operation : Operation α) :
    (q.apply operation).2.Bounded := by
  cases operation with
  | enqueue frame =>
    simp only [FrameQueue.apply, enqueue]
    split
    · intro hm
      have := length_makeRoom_add_le q hm (Nat.pos_of_ne_zero hm)
      rwa [List.length_append, List.length_singleton]
    · exact h
  | dequeue =>
    simp only [FrameQueue.apply, dequeue]
    split
    · intro hm
      have := h hm
      simp only [List.length_tail]
      omega
    · exact h
  | setMaxCount maxCount =>
    intro hm
    exact length_makeRoom_add_le { q with maxCount } hm (Nat.zero_le _)
  | clear => exact fun _ => Nat.zero_le _
  | start => exact h
  | stop => exact h

/-- The frames that were evicted are counted, and no others. -/
theorem dropped_apply (q : FrameQueue α) (operation : Operation α) :
    (q.apply operation).2.dropped =
      q.dropped + (entry operation (q.apply operation).1).evicted.length := by
  cases operation with
  | enqueue frame =>
    simp only [apply, enqueue]
    split
    · simp only [entry, Ledger.evicted, Ledger.withFate_map]
      rfl
    · rfl
  | dequeue =>
    simp only [apply, dequeue]
    split
    · simp only [entry, Ledger.evicted, Ledger.withFate_map]
      rfl
    · rfl
  | setMaxCount maxCount =>
    simp only [apply, entry, Ledger.evicted, Ledger.withFate_map]
    rfl
  | clear =>
    simp only [apply, entry, Ledger.evicted, Ledger.withFate_map]
    rfl
  | start => rfl
  | stop => rfl

theorem servedTo_entry (operation : Operation α) (outcome : Outcome α) (consumer : Nat) :
    (entry operation outcome).servedTo consumer = [] := by
  unfold entry
  split <;> simp [Ledger.servedTo, Ledger.withFate, Ledger.empty]

/-- A stopped queue gives nothing out. -/
theorem handedOut_entry_of_stopped {q : FrameQueue α} (hr : q.running = false)
    (operation : Operation α) : (entry operation (q.apply operation).1).handedOut = [] := by
  cases operation with
  | enqueue frame =>
    rw [show (q.apply (.enqueue frame)).1 = .offered (.refused frame) by
      simp [apply, enqueue, hr]]
    rfl
  | dequeue =>
    rw [show (q.apply .dequeue).1 = .taken none by simp [apply, dequeue, hr]]
    rfl
  | setMaxCount maxCount => exact Ledger.withFate_map _ _ _ _
  | clear => exact Ledger.withFate_map _ _ _ _
  | start => rfl
  | stop => rfl

/-- Only a bounded queue that is full evicts a frame for another. -/
theorem full_of_evicted {q : FrameQueue α} (h : q.Bounded) {frame : α} {evicted : List α}
    (he : (q.enqueue frame).1 = .accepted evicted) (hn : evicted ≠ []) :
    q.maxCount ≠ 0 ∧ q.frames.length = q.maxCount := by
  unfold enqueue at he
  split at he
  · cases he
    have hx : q.excess 1 ≠ 0 := by
      intro hx
      simp [hx] at hn
    unfold excess at hx
    split at hx
    · exact absurd rfl hx
    · rename_i hm
      have := h hm
      exact ⟨hm, by omega⟩
  · cases he

end FrameQueue

/-! ## What consumers got -/

namespace Consumers

variable {α : Type}

/-- What consumer `i` has left with: at most one frame. -/
def received (phases : List (Phase α)) (i : Nat) : List α := (phases[i]?.bind got).toList

theorem received_set_self {phases : List (Phase α)} {i : Nat} (hi : i < phases.length)
    (phase : Phase α) : received (phases.set i phase) i = (got phase).toList := by
  rw [received, List.getElem?_set_self hi, Option.bind_some]

theorem received_set_of_got_eq {phases : List (Phase α)} {i : Nat} {earlier later : Phase α}
    (hi : phases[i]? = some earlier) (hg : got later = got earlier) (j : Nat) :
    received (phases.set i later) j = received phases j := by
  by_cases h : i = j
  · subst h
    rw [received_set_self (List.getElem?_eq_some_iff.1 hi).1, hg, received, hi, Option.bind_some]
  · rw [received, List.getElem?_set_ne h, received]

theorem received_append_awake (phases : List (Phase α)) (deadline : Option Instant) (j : Nat) :
    received (phases ++ [.awake deadline]) j = received phases j := by
  unfold received
  rcases Nat.lt_trichotomy j phases.length with h | h | h
  · rw [List.getElem?_append_left h]
  · subst h
    simp [got]
  · rw [List.getElem?_eq_none (by simp; omega), List.getElem?_eq_none (Nat.le_of_lt h)]

theorem received_map_woken (phases : List (Phase α)) (j : Nat) :
    received (phases.map woken) j = received phases j := by
  unfold received
  rw [List.getElem?_map]
  cases phases[j]? with
  | none => rfl
  | some phase => cases phase <;> rfl

/-! ## Runs -/

/-- What an event puts into the ledger. A look hands out the frame that the consumer left with. -/
def entry (s : Consumers α) : Event α → Ledger α
  | .operate operation => FrameQueue.entry operation (s.queue.apply operation).1
  | .look i =>
    if s.awakeAt i then ⟨[], (received (s.step (.look i)).phases i).map (.served i, ·)⟩ else .empty
  | _ => .empty

/-- The ledger of a run. -/
def ledger (s : Consumers α) : List (Event α) → Ledger α
  | [] => .empty
  | event :: events => (s.entry event).append ((s.step event).ledger events)

variable {s t u : Consumers α} {l m : Ledger α} {i : Nat} {deadline : Option Instant}

/-- A look puts into the ledger what the consumer leaves with. -/
theorem entry_look {phase : Phase α} (hi : s.phases[i]? = some (.awake deadline))
    (hs : (s.step (.look i)).phases = s.phases.set i phase) :
    s.entry (.look i) = ⟨[], (got phase).toList.map (.served i, ·)⟩ := by
  rw [entry, if_pos (awakeAt_iff.2 ⟨deadline, hi⟩), hs,
    received_set_self (List.getElem?_eq_some_iff.1 hi).1]

theorem entry_of_idle {event : Event α} (h : s.Idle event) : s.entry event = .empty := by
  cases event with
  | operate operation => exact h.elim
  | look i =>
    rw [entry, if_neg]
    exact fun ha => absurd (h.symm.trans ha) Bool.false_ne_true
  | _ => rfl

/-- What a step does to the queue, and what it puts into the ledger. -/
theorem queue_step (s : Consumers α) (event : Event α) :
    (∃ operation, event = .operate operation ∧
      (s.step event).queue = (s.queue.apply operation).2) ∨
    (∃ consumer frame rest, s.queue.frames = frame :: rest ∧
      (s.step event).queue = { s.queue with frames := rest } ∧
      s.entry event = ⟨[], [(.served consumer, frame)]⟩) ∨
    (s.step event).queue = s.queue ∧ s.entry event = .empty := by
  have hm := s.step_move event
  generalize ht : s.step event = t at hm ⊢
  cases hm with
  | operate operation => exact .inl ⟨operation, rfl, rfl⟩
  | stopped hi => exact .inr (.inr ⟨rfl, entry_look hi (congrArg phases ht)⟩)
  | @served consumer _ frame rest hi _ hf =>
    exact .inr (.inl ⟨consumer, frame, rest, hf, rfl, entry_look hi (congrArg phases ht)⟩)
  | late hi => exact .inr (.inr ⟨rfl, entry_look hi (congrArg phases ht)⟩)
  | park hi => exact .inr (.inr ⟨rfl, entry_look hi (congrArg phases ht)⟩)
  | idle hidle => exact .inr (.inr ⟨rfl, entry_of_idle hidle⟩)
  | _ => exact .inr (.inr ⟨rfl, rfl⟩)

/-- A ledger tells all that became of a queue between two states: what was queued and was accepted
is what left and is queued, in order, and the evictions are counted. -/
structure Conserved (s : Consumers α) (l : Ledger α) (t : Consumers α) : Prop where
  order : s.queue.frames ++ l.accepted = l.gone.map Prod.snd ++ t.queue.frames
  dropped : t.queue.dropped = s.queue.dropped + l.evicted.length

theorem Conserved.of_same (hq : t.queue = s.queue) : Conserved s .empty t where
  order := by
    rw [hq]
    exact List.append_nil _
  dropped := congrArg FrameQueue.dropped hq

theorem Conserved.trans (h : Conserved s l t) (h' : Conserved t m u) :
    Conserved s (l.append m) u where
  order := by
    simp only [Ledger.append, List.map_append]
    rw [← List.append_assoc, h.order, List.append_assoc, h'.order, List.append_assoc]
  dropped := by
    rw [Ledger.evicted, Ledger.withFate_append, List.length_append, h'.dropped, h.dropped,
      Nat.add_assoc]
    rfl

theorem conserved_step (s : Consumers α) (event : Event α) :
    Conserved s (s.entry event) (s.step event) := by
  rcases queue_step s event with
    ⟨operation, rfl, hq⟩ | ⟨consumer, frame, rest, hf, hq, he⟩ | ⟨hq, he⟩
  · exact ⟨s.queue.frames_apply operation, s.queue.dropped_apply operation⟩
  · rw [he]
    refine ⟨?_, ?_⟩
    · rw [hf, hq]
      exact List.append_nil _
    · rw [hq]
      rfl
  · rw [he]
    exact .of_same hq

/-- Whatever a queue held and had evicted before a run, the ledger of the run tells the rest. -/
theorem conserved_steps (s : Consumers α) (events : List (Event α)) :
    Conserved s (s.ledger events) (s.steps events) := by
  induction events generalizing s with
  | nil => exact .of_same rfl
  | cons event events ih => exact (conserved_step s event).trans (ih (s.step event))

/-- The ledger of the frames that a run had accepted. Those that were queued before the run left
first. -/
def ownLedger (s : Consumers α) (events : List (Event α)) : Ledger α :=
  (s.ledger events).since s.queue.frames.length

/-- The frames that a run had accepted and that are queued at its end. -/
def ownQueued (s : Consumers α) (events : List (Event α)) : List α :=
  (s.steps events).queue.frames.drop (s.queue.frames.length - (s.ledger events).gone.length)

/-- The frames that were accepted in a run have left, or are queued behind what was queued
before. -/
theorem accepted_eq_own (s : Consumers α) (events : List (Event α)) :
    (s.ledger events).accepted =
      (s.ownLedger events).gone.map Prod.snd ++ s.ownQueued events := by
  have hdrop := congrArg (List.drop s.queue.frames.length) (conserved_steps s events).order
  rwa [List.drop_left, List.drop_append, List.length_map, ← List.map_drop] at hdrop

theorem length_accepted_eq_own (s : Consumers α) (events : List (Event α)) :
    (s.ledger events).accepted.length =
      (s.ownLedger events).handedOut.length + (s.ownLedger events).evicted.length +
        (s.ownLedger events).cleared.length + (s.ownQueued events).length := by
  rw [accepted_eq_own, List.length_append, (s.ownLedger events).gone_perm.length_eq,
    List.length_append, List.length_append]

/-- Of what an empty queue has accepted it evicts no more. -/
theorem length_evicted_le (events : List (Event α)) (h : s.queue.frames = []) :
    (s.ledger events).evicted.length ≤ (s.ledger events).accepted.length := by
  have hown : s.ownLedger events = s.ledger events := by
    rw [ownLedger, h]
    rfl
  rw [length_accepted_eq_own, hown]
  omega

theorem bounded_step (h : s.queue.Bounded) (event : Event α) : (s.step event).queue.Bounded := by
  rcases queue_step s event with ⟨operation, -, hq⟩ | ⟨_, frame, rest, hf, hq, -⟩ | ⟨hq, -⟩
  · rw [hq]
    exact h.apply operation
  · rw [hq]
    intro hn
    have := h hn
    rw [hf, List.length_cons] at this
    exact Nat.le_of_succ_le this
  · exact hq ▸ h

/-- A consumer has what it had, and what the step hands to it. -/
theorem received_step (s : Consumers α) (event : Event α) (j : Nat) :
    received (s.step event).phases j = received s.phases j ++ (s.entry event).servedTo j := by
  -- most steps hand nothing to anyone
  have hkept {later : List (Phase α)} (hr : ∀ i, received later i = received s.phases i) :
      received later j = received s.phases j ++ [] := (hr j).trans (List.append_nil _).symm
  have hm := s.step_move event
  generalize ht : s.step event = t at hm ⊢
  cases hm with
  | operate operation => rw [entry, FrameQueue.servedTo_entry, List.append_nil]
  | call timeout => exact hkept (received_append_awake _ _)
  | stopped hi =>
    rw [entry_look hi (congrArg phases ht)]
    exact hkept (received_set_of_got_eq hi rfl)
  | @served i _ frame rest hi =>
    rw [entry_look hi (congrArg phases ht)]
    by_cases hj : i = j
    · subst hj
      rw [received_set_self (List.getElem?_eq_some_iff.1 hi).1]
      simp [received, hi, got, Ledger.servedTo, Ledger.withFate]
    · rw [received, List.getElem?_set_ne hj, received]
      simp [got, Ledger.servedTo, Ledger.withFate, hj]
  | late hi =>
    rw [entry_look hi (congrArg phases ht)]
    exact hkept (received_set_of_got_eq hi rfl)
  | park hi =>
    rw [entry_look hi (congrArg phases ht)]
    exact hkept (received_set_of_got_eq hi rfl)
  | wakeOne hi => exact hkept (received_set_of_got_eq hi rfl)
  | wakeNobody => exact hkept fun _ => rfl
  | wakeAll => exact hkept (received_map_woken _)
  | wake hi => exact hkept (received_set_of_got_eq hi rfl)
  | pass time => exact hkept fun _ => rfl
  | idle hidle =>
    rw [entry_of_idle hidle]
    exact hkept fun _ => rfl

/-- A ledger and the state that it led to agree. -/
structure Balanced (s : Consumers α) (l : Ledger α) : Prop where
  order : l.accepted = l.gone.map Prod.snd ++ s.queue.frames
  bounded : s.queue.Bounded
  dropped : s.queue.dropped = l.evicted.length
  served : ∀ i, l.servedTo i = received s.phases i

theorem balanced_step (h : s.Balanced l) (event : Event α) :
    (s.step event).Balanced (l.append (s.entry event)) where
  order := by
    simp only [Ledger.append, List.map_append]
    rw [h.order, List.append_assoc, (conserved_step s event).order, List.append_assoc]
  bounded := bounded_step h.bounded event
  dropped := by
    rw [Ledger.evicted, Ledger.withFate_append, List.length_append,
      (conserved_step s event).dropped, h.dropped]
    rfl
  served i := by
    rw [Ledger.servedTo, Ledger.withFate_append, received_step, ← h.served]
    rfl

theorem balanced_steps (h : s.Balanced l) (events : List (Event α)) :
    (s.steps events).Balanced (l.append (s.ledger events)) := by
  induction events generalizing s l with
  | nil =>
    rw [ledger, Ledger.append_empty]
    exact h
  | cons event events ih =>
    rw [ledger, ← Ledger.append_assoc]
    exact ih (balanced_step h event)

theorem balanced_ofQueue (maxCount : Nat) (now : Instant) :
    (ofQueue (.ofMaxCount maxCount : FrameQueue α) now).Balanced .empty where
  order := rfl
  bounded _ := Nat.zero_le _
  dropped := rfl
  served _ := rfl

/-! ## Offers -/

/-- The frame that an event offers. -/
def Event.offered? : Event α → Option α
  | .operate (.enqueue frame) => some frame
  | _ => none

/-- The frames that are offered in a run, in order, each with whether the queue runs then. -/
def offered (s : Consumers α) : List (Event α) → List (α × Bool)
  | [] => []
  | event :: events =>
    (event.offered?.map (·, s.queue.running)).toList ++ (s.step event).offered events

theorem offered_append (s : Consumers α) (events later : List (Event α)) :
    s.offered (events ++ later) = s.offered events ++ (s.steps events).offered later := by
  induction events generalizing s with
  | nil => rfl
  | cons event events ih =>
    rw [List.cons_append, offered, offered, ih, List.append_assoc]
    rfl

theorem offered_of_forall (s : Consumers α) {events : List (Event α)}
    (h : ∀ event ∈ events, event.offered? = none) : s.offered events = [] := by
  induction events generalizing s with
  | nil => rfl
  | cons event events ih =>
    obtain ⟨he, hes⟩ := List.forall_mem_cons.1 h
    rw [offered, he, ih _ hes]
    rfl

/-- An event has a frame accepted if it offers one while the queue runs. -/
theorem accepted_entry (s : Consumers α) (event : Event α) :
    (s.entry event).accepted =
      (((event.offered?.map (·, s.queue.running)).toList).filter Prod.snd).map Prod.fst := by
  cases event with
  | operate operation =>
    cases operation with
    | enqueue frame =>
      simp only [entry, FrameQueue.apply, FrameQueue.enqueue, Event.offered?]
      cases hr : s.queue.running <;> simp [FrameQueue.entry, Ledger.empty]
    | dequeue =>
      simp only [entry, FrameQueue.apply, FrameQueue.entry, Event.offered?]
      rfl
    | _ => rfl
  | look i =>
    simp only [entry]
    split <;> rfl
  | _ => rfl

/-- The frames that a queue accepts are those that it is offered while it runs. -/
theorem accepted_ledger (s : Consumers α) (events : List (Event α)) :
    (s.ledger events).accepted = ((s.offered events).filter Prod.snd).map Prod.fst := by
  induction events generalizing s with
  | nil => rfl
  | cons event events ih =>
    rw [offered, List.filter_append, List.map_append, ← accepted_entry, ← ih]
    rfl

/-! ## What is accounted for -/

/-- While a queue is stopped nothing is handed out. -/
theorem handedOut_entry_of_stopped (hr : s.queue.running = false) (event : Event α) :
    (s.entry event).handedOut = [] := by
  have hm := s.step_move event
  generalize ht : s.step event = t at hm
  cases hm with
  | operate operation => exact FrameQueue.handedOut_entry_of_stopped hr operation
  | stopped hi =>
    rw [entry_look hi (congrArg phases ht)]
    rfl
  | served _ hrun => exact absurd (hr.symm.trans hrun) Bool.false_ne_true
  | late _ hrun => exact absurd (hr.symm.trans hrun) Bool.false_ne_true
  | park _ hrun => exact absurd (hr.symm.trans hrun) Bool.false_ne_true
  | idle hidle =>
    rw [entry_of_idle hidle]
    rfl
  | _ => rfl

/-- Every frame that a queue accepted is accounted for. -/
structure Accounted (s : Consumers α) (l : Ledger α) : Prop extends s.Balanced l where
  /-- An accepted frame was handed out, evicted or cleared, or is queued, and only one of these. -/
  once : l.accepted.Perm (l.handedOut ++ l.evicted ++ l.cleared ++ s.queue.frames)
  queued : s.queue.frames <:+ l.accepted
  inOrder : l.handedOut.Sublist l.accepted
  /-- A frame is evicted for another only if the queue is full. -/
  full : ∀ frame evicted, (s.queue.enqueue frame).1 = .accepted evicted → evicted ≠ [] →
    s.queue.maxCount ≠ 0 ∧ s.queue.frames.length = s.queue.maxCount
  /-- A stopped queue hands a frame back that is offered, and that changes nothing. -/
  refused : s.queue.running = false → ∀ frame,
    (s.queue.enqueue frame).1 = .refused frame ∧ s.step (.operate (.enqueue frame)) = s
  stopped : s.queue.running = false → ∀ event, (s.entry event).handedOut = []

/-- A queue neither loses frames, nor hands them out twice or out of order, however it is used. -/
theorem accounted_steps (maxCount : Nat) (now : Instant) (events : List (Event α)) :
    let s := ofQueue (.ofMaxCount maxCount) now
    (s.steps events).Accounted (s.ledger events) := by
  intro s
  have h : (s.steps events).Balanced (s.ledger events) :=
    balanced_steps (balanced_ofQueue maxCount now) events
  refine ⟨h, ?_, ⟨_, h.order.symm⟩, ?_, fun _ _ => FrameQueue.full_of_evicted h.bounded,
    fun hr frame => ?_, handedOut_entry_of_stopped⟩
  · rw [h.order]
    exact (s.ledger events).gone_perm.append_right _
  · rw [h.order]
    exact ((s.ledger events).withFate_sublist _).trans (List.sublist_append_left _ _)
  · simp [step, FrameQueue.apply, FrameQueue.enqueue, hr, owesOne, owesAll]

end Consumers

end RadarHost
