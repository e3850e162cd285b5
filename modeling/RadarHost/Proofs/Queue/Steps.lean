import RadarHost.Queue.Consumers

/-!
# What the steps of a queue and its consumers do

* `running_apply`, `length_apply_le`: what an operation does to the state of a queue, and that it
  queues no more frames than it owes wake-ups;
* `Move`, `step_move`: everything that a step can do, each case with what has to hold for it;
* `step_look_stopped`, `step_look_frame`, `step_look_late`, `step_look_wait`: what a consumer that
  looks at the queue finds, one lemma for each answer;
* `awake_step`, `parked_step`, `left_step`: what becomes of a consumer that does not look;
* `steps_append`: a run goes on where it stopped.
-/

namespace RadarHost

/-! ## Operations -/

namespace FrameQueue

variable {α : Type}

theorem running_apply (q : FrameQueue α) (operation : Operation α) :
    (q.apply operation).2.running =
      match operation with
      | .start => true
      | .stop => false
      | _ => q.running := by
  cases operation with
  | enqueue frame =>
    simp only [apply, enqueue]
    split <;> rfl
  | dequeue =>
    simp only [apply, dequeue]
    split <;> rfl
  | setMaxCount maxCount => rfl
  | clear => rfl
  | start => rfl
  | stop => rfl

/-- Nothing but a stop stops a queue. -/
theorem running_apply_of_ne_stop {q : FrameQueue α} {operation : Operation α}
    (hr : q.running = true) (hs : operation ≠ .stop) : (q.apply operation).2.running = true := by
  rw [running_apply]
  cases operation with
  | start => rfl
  | stop => exact absurd rfl hs
  | _ => exact hr

theorem length_makeRoom_le (q : FrameQueue α) (extra : Nat) :
    (q.makeRoom extra).2.frames.length ≤ q.frames.length := by
  simp only [makeRoom, List.length_drop]
  omega

/-- An operation queues no more frames than it owes wake-ups of one. -/
theorem length_apply_le (q : FrameQueue α) (operation : Operation α) :
    (q.apply operation).2.frames.length ≤
      q.frames.length + Consumers.owesOne (q.apply operation).1 := by
  cases operation with
  | enqueue frame =>
    simp only [apply, enqueue]
    split
    · have := length_makeRoom_le q 1
      simp only [List.length_append, List.length_singleton, Consumers.owesOne]
      omega
    · exact Nat.le_add_right _ _
  | dequeue =>
    simp only [apply, dequeue]
    split
    · simp only [List.length_tail]
      omega
    · exact Nat.le_add_right _ _
  | setMaxCount maxCount =>
    have := length_makeRoom_le { q with maxCount } 0
    exact Nat.le_trans this (Nat.le_add_right _ _)
  | clear => exact Nat.zero_le _
  | start => exact Nat.le_add_right _ _
  | stop => exact Nat.le_add_right _ _

end FrameQueue

namespace Consumers

variable {α : Type}

/-! ## Looks -/

/-- Whether the wait of a consumer is over; a wait without a deadline never is. -/
def timeUp (deadline : Option Instant) (now : Instant) : Bool := deadline.any (· ≤ now)

variable {s : Consumers α} {i : Nat} {deadline : Option Instant}

/-- A consumer that looks at a stopped queue leaves with nothing. -/
theorem step_look_stopped (hi : s.phases[i]? = some (.awake deadline))
    (hr : s.queue.running = false) :
    s.step (.look i) = { s with phases := s.phases.set i (.left none) } := by
  simp [step, FrameQueue.check, hi, hr]

/-- A consumer that finds frames leaves with the oldest, be it late or not. -/
theorem step_look_frame {frame : α} {rest : List α} (hi : s.phases[i]? = some (.awake deadline))
    (hr : s.queue.running = true) (hf : s.queue.frames = frame :: rest) :
    s.step (.look i) =
      { s with
        queue := { s.queue with frames := rest }
        phases := s.phases.set i (.left (some frame)) } := by
  simp [step, FrameQueue.check, hi, hr, hf]

/-- A consumer that finds no frame when its time is up leaves with nothing. -/
theorem step_look_late (hi : s.phases[i]? = some (.awake deadline))
    (hr : s.queue.running = true) (hf : s.queue.frames = [])
    (ht : timeUp deadline s.now = true) :
    s.step (.look i) = { s with phases := s.phases.set i (.left none) } := by
  cases deadline with
  | none => cases ht
  | some d =>
    simp only [timeUp, Option.any_some, decide_eq_true_eq] at ht
    simp [step, FrameQueue.check, hi, hr, hf, ht]

/-- A consumer that finds no frame and has time left is parked. -/
theorem step_look_wait (hi : s.phases[i]? = some (.awake deadline))
    (hr : s.queue.running = true) (hf : s.queue.frames = [])
    (ht : timeUp deadline s.now = false) :
    s.step (.look i) = { s with phases := s.phases.set i (.parked deadline) } := by
  cases deadline with
  | none => simp [step, FrameQueue.check, hi, hr, hf]
  | some d =>
    simp only [timeUp, Option.any_some, decide_eq_false_iff_not] at ht
    simp [step, FrameQueue.check, hi, hr, hf, ht]

/-! ## Steps -/

/-- Whether consumer `i` waits to be woken. -/
def parkedAt (s : Consumers α) (i : Nat) : Bool := s.phases[i]?.any isParked

/-- Whether consumer `i` has yet to look at the queue. -/
def awakeAt (s : Consumers α) (i : Nat) : Bool :=
  s.phases[i]?.any fun
    | .awake _ => true
    | _ => false

theorem parkedAt_iff : s.parkedAt i = true ↔ ∃ d, s.phases[i]? = some (.parked d) := by
  unfold parkedAt
  cases s.phases[i]? with
  | none => simp
  | some phase => cases phase <;> simp [isParked]

theorem awakeAt_iff : s.awakeAt i = true ↔ ∃ d, s.phases[i]? = some (.awake d) := by
  unfold awakeAt
  cases s.phases[i]? with
  | none => simp
  | some phase => cases phase <;> simp

theorem awakeAt_of_parked (hi : s.phases[i]? = some (.parked deadline)) :
    s.awakeAt i = false := by
  rw [awakeAt, hi]
  rfl

/-- The steps that cannot be taken. -/
def Idle (s : Consumers α) : Event α → Prop
  | .look i => s.awakeAt i = false
  | .wakeOne i => s.parkedAt i = false ∨ s.wakeOnes = 0
  | .wakeNobody => s.phases.any isParked = true
  | .wakeAll => s.wakeAlls = 0
  | .wake i => s.parkedAt i = false
  | _ => False

/-- What a step can do: it is taken, in one of these ways, or cannot be and changes nothing. -/
inductive Move (s : Consumers α) : Event α → Consumers α → Prop
  | operate (operation : FrameQueue.Operation α) :
      Move s (.operate operation)
        { s with
          queue := (s.queue.apply operation).2
          wakeOnes := s.wakeOnes + owesOne (s.queue.apply operation).1
          wakeAlls := s.wakeAlls + owesAll operation }
  | call (timeout : Duration) :
      Move s (.call timeout)
        { s with phases := s.phases ++ [.awake (Instant.waitEnd? s.now timeout)] }
  /-- A consumer looks at a stopped queue. -/
  | stopped {i : Nat} {deadline : Option Instant} (hi : s.phases[i]? = some (.awake deadline))
      (hr : s.queue.running = false) :
      Move s (.look i) { s with phases := s.phases.set i (.left none) }
  /-- A consumer takes the oldest frame. -/
  | served {i : Nat} {deadline : Option Instant} {frame : α} {rest : List α}
      (hi : s.phases[i]? = some (.awake deadline)) (hr : s.queue.running = true)
      (hf : s.queue.frames = frame :: rest) :
      Move s (.look i)
        { s with
          queue := { s.queue with frames := rest }
          phases := s.phases.set i (.left (some frame)) }
  /-- A consumer finds no frame, and its time is up. -/
  | late {i : Nat} {deadline : Option Instant} (hi : s.phases[i]? = some (.awake deadline))
      (hr : s.queue.running = true) (hf : s.queue.frames = [])
      (ht : timeUp deadline s.now = true) :
      Move s (.look i) { s with phases := s.phases.set i (.left none) }
  /-- A consumer finds no frame and is parked. -/
  | park {i : Nat} {deadline : Option Instant} (hi : s.phases[i]? = some (.awake deadline))
      (hr : s.queue.running = true) (hf : s.queue.frames = [])
      (ht : timeUp deadline s.now = false) :
      Move s (.look i) { s with phases := s.phases.set i (.parked deadline) }
  | wakeOne {i : Nat} {deadline : Option Instant} (hi : s.phases[i]? = some (.parked deadline))
      (hw : 0 < s.wakeOnes) :
      Move s (.wakeOne i)
        { s with wakeOnes := s.wakeOnes - 1, phases := s.phases.set i (.awake deadline) }
  | wakeNobody (hn : ∀ i, s.parkedAt i = false) :
      Move s .wakeNobody { s with wakeOnes := s.wakeOnes - 1 }
  | wakeAll (hw : 0 < s.wakeAlls) :
      Move s .wakeAll { s with wakeAlls := s.wakeAlls - 1, phases := s.phases.map woken }
  | wake {i : Nat} {deadline : Option Instant} (hi : s.phases[i]? = some (.parked deadline)) :
      Move s (.wake i) { s with phases := s.phases.set i (.awake deadline) }
  | pass (time : Duration) : Move s (.pass time) { s with now := s.now + time }
  | idle {event : Event α} (h : s.Idle event) : Move s event s

theorem parkedAt_eq_false (h : s.phases.any isParked = false) (i : Nat) :
    s.parkedAt i = false := by
  unfold parkedAt
  cases hi : s.phases[i]? with
  | none => rfl
  | some phase =>
    rw [List.any_eq_false] at h
    simpa using h phase (List.mem_of_getElem? hi)

theorem step_of_idle {event : Event α} (h : s.Idle event) : s.step event = s := by
  cases event with
  | operate operation => exact h.elim
  | call timeout => exact h.elim
  | look i =>
    simp only [step]
    split
    · rename_i hi
      exact absurd (h.symm.trans (awakeAt_iff.2 ⟨_, hi⟩)) Bool.false_ne_true
    · rfl
  | wakeOne i =>
    simp only [step]
    split
    · rename_i hi
      rcases h with h | h
      · exact absurd (h.symm.trans (parkedAt_iff.2 ⟨_, hi⟩)) Bool.false_ne_true
      · exact if_pos h
    · rfl
  | wakeNobody => exact if_pos h
  | wakeAll => exact if_pos h
  | wake i =>
    simp only [step]
    split
    · rename_i hi
      exact absurd (h.symm.trans (parkedAt_iff.2 ⟨_, hi⟩)) Bool.false_ne_true
    · rfl
  | pass time => exact h.elim

theorem move_of_idle {event : Event α} (h : s.Idle event) : Move s event (s.step event) :=
  (step_of_idle h).symm ▸ .idle h

theorem step_move (s : Consumers α) (event : Event α) : Move s event (s.step event) := by
  cases event with
  | operate operation => exact .operate operation
  | call timeout => exact .call timeout
  | look i =>
    cases ha : s.awakeAt i with
    | false => exact move_of_idle ha
    | true =>
      obtain ⟨deadline, hi⟩ := awakeAt_iff.1 ha
      cases hr : s.queue.running with
      | false => exact step_look_stopped hi hr ▸ .stopped hi hr
      | true =>
        cases hf : s.queue.frames with
        | cons frame rest => exact step_look_frame hi hr hf ▸ .served hi hr hf
        | nil =>
          cases ht : timeUp deadline s.now with
          | true => exact step_look_late hi hr hf ht ▸ .late hi hr hf ht
          | false => exact step_look_wait hi hr hf ht ▸ .park hi hr hf ht
  | wakeOne i =>
    cases hp : s.parkedAt i with
    | false => exact move_of_idle (.inl hp)
    | true =>
      by_cases hw : s.wakeOnes = 0
      · exact move_of_idle (.inr hw)
      · obtain ⟨deadline, hi⟩ := parkedAt_iff.1 hp
        rw [show s.step (.wakeOne i) =
          { s with wakeOnes := s.wakeOnes - 1, phases := s.phases.set i (.awake deadline) } by
            simp [step, hi, hw]]
        exact .wakeOne hi (Nat.pos_of_ne_zero hw)
  | wakeNobody =>
    by_cases hp : s.phases.any isParked = true
    · exact move_of_idle hp
    · rw [show s.step .wakeNobody = { s with wakeOnes := s.wakeOnes - 1 } from if_neg hp]
      exact .wakeNobody (parkedAt_eq_false (eq_false_of_ne_true hp))
  | wakeAll =>
    by_cases hw : s.wakeAlls = 0
    · exact move_of_idle hw
    · rw [show s.step .wakeAll =
        { s with wakeAlls := s.wakeAlls - 1, phases := s.phases.map woken } from if_neg hw]
      exact .wakeAll (Nat.pos_of_ne_zero hw)
  | wake i =>
    cases hp : s.parkedAt i with
    | false => exact move_of_idle hp
    | true =>
      obtain ⟨deadline, hi⟩ := parkedAt_iff.1 hp
      rw [show s.step (.wake i) = { s with phases := s.phases.set i (.awake deadline) } by
        simp [step, hi]]
      exact .wake hi
  | pass time => exact .pass time

/-! ## Consumers that do not look -/

theorem set_of_look {j : Nat} {phase : Phase α} (later : Phase α)
    (hj : s.phases[j]? = some (.awake deadline)) (hi : s.phases[i]? = some phase)
    (he : (Event.look j : Event α) = .look i → ∀ d, phase ≠ .awake d) :
    (s.phases.set j later)[i]? = some phase := by
  have hne : j ≠ i := by
    rintro rfl
    rw [hj] at hi
    exact he rfl deadline (Option.some.inj hi).symm
  rw [List.getElem?_set_ne hne, hi]

theorem set_of_wake {j : Nat} {phase : Phase α}
    (hj : s.phases[j]? = some (.parked deadline)) (hi : s.phases[i]? = some phase) :
    (s.phases.set j (.awake deadline))[i]? = some phase ∨
      (s.phases.set j (.awake deadline))[i]? = some (woken phase) := by
  by_cases h : j = i
  · subst h
    obtain ⟨hl, -⟩ := List.getElem?_eq_some_iff.1 hi
    rw [hj] at hi
    cases hi
    exact .inr (List.getElem?_set_self hl)
  · exact .inl ((List.getElem?_set_ne h).trans hi)

/-- A consumer that does not look stays where it is, or is woken. -/
theorem phase_step {phase : Phase α} {event : Event α} (hi : s.phases[i]? = some phase)
    (he : event = .look i → ∀ d, phase ≠ .awake d) :
    (s.step event).phases[i]? = some phase ∨
      (s.step event).phases[i]? = some (woken phase) := by
  have hm := s.step_move event
  generalize s.step event = t at hm ⊢
  cases hm with
  | operate operation => exact .inl hi
  | call timeout =>
    obtain ⟨hl, -⟩ := List.getElem?_eq_some_iff.1 hi
    exact .inl ((List.getElem?_append_left hl).trans hi)
  | stopped hj => exact .inl (set_of_look _ hj hi he)
  | served hj => exact .inl (set_of_look _ hj hi he)
  | late hj => exact .inl (set_of_look _ hj hi he)
  | park hj => exact .inl (set_of_look _ hj hi he)
  | wakeOne hj => exact set_of_wake hj hi
  | wakeNobody => exact .inl hi
  | wakeAll =>
    refine .inr ?_
    simp only [List.getElem?_map, hi, Option.map_some]
  | wake hj => exact set_of_wake hj hi
  | pass time => exact .inl hi
  | idle => exact .inl hi

/-- A consumer that is awake stays so until it looks. -/
theorem awake_step {event : Event α} (hi : s.phases[i]? = some (.awake deadline))
    (he : event ≠ .look i) : (s.step event).phases[i]? = some (.awake deadline) :=
  (phase_step hi fun h => absurd h he).elim id id

/-- A consumer that is parked stays so until it is woken. -/
theorem parked_step (event : Event α) (hi : s.phases[i]? = some (.parked deadline)) :
    (s.step event).phases[i]? = some (.parked deadline) ∨
      (s.step event).phases[i]? = some (.awake deadline) :=
  phase_step hi fun _ _ h => by cases h

/-- A consumer that has left keeps what it got. -/
theorem left_step {frame : Option α} (event : Event α) (hi : s.phases[i]? = some (.left frame)) :
    (s.step event).phases[i]? = some (.left frame) :=
  (phase_step hi fun _ _ h => by cases h).elim id id

/-! ## Runs -/

theorem steps_append (s : Consumers α) (events later : List (Event α)) :
    s.steps (events ++ later) = (s.steps events).steps later := List.foldl_append

theorem steps_concat (s : Consumers α) (events : List (Event α)) (event : Event α) :
    s.steps (events ++ [event]) = (s.steps events).step event := steps_append s events [event]

end Consumers

end RadarHost
