import Mathlib.Data.List.Induction
import RadarHost.Proofs.Queue.Steps

/-!
# Whom a stop releases

A stop owes a wake-up to all who are parked, so that each of them looks at the queue once more
(`owed_steps`). What a consumer finds then is up to those who were quicker: if the queue has been
started again by that time, a frame is a frame, and without one a consumer that has time left is
parked once more (`served_after_stop`). So a stop releases a consumer, for good and with nothing,
exactly if the queue is not started again before that look, or is but has no frame when the
consumer's time is up (`released_iff`).
-/

namespace RadarHost

namespace Consumers

variable {α : Type} {s : Consumers α} {i : Nat} {deadline : Option Instant}

/-! ## Whether the queue runs -/

/-- Whether a queue runs after an event, from whether it ran before. -/
def switch (running : Bool) : Event α → Bool
  | .operate .start => true
  | .operate .stop => false
  | _ => running

/-- Whether a queue that was stopped runs after some events: the last start or stop is a start. -/
def restarted (events : List (Event α)) : Bool := events.foldl switch false

theorem running_step (s : Consumers α) (event : Event α) :
    (s.step event).queue.running = switch s.queue.running event := by
  have hm := s.step_move event
  generalize s.step event = t at hm ⊢
  cases hm with
  | operate operation =>
    simp only [FrameQueue.running_apply]
    cases operation <;> rfl
  | idle h =>
    cases event with
    | operate operation => exact h.elim
    | _ => rfl
  | _ => rfl

theorem running_steps (s : Consumers α) (events : List (Event α)) :
    (s.steps events).queue.running = events.foldl switch s.queue.running := by
  induction events generalizing s with
  | nil => rfl
  | cons event events ih => exact (ih (s.step event)).trans (by rw [running_step]; rfl)

theorem running_steps_stop (s : Consumers α) (events : List (Event α)) :
    ((s.step (.operate .stop)).steps events).queue.running = restarted events := by
  rw [running_steps, running_step]
  rfl

theorem restarted_eq_false {events : List (Event α)} (h : ∀ e ∈ events, e ≠ .operate .start) :
    restarted events = false := by
  induction events using List.reverseRecOn with
  | nil => rfl
  | append_singleton events event ih =>
    have hi := ih fun e he => h e (List.mem_append_left _ he)
    have he := h event (List.mem_append_right _ (List.mem_singleton_self _))
    rw [restarted, List.foldl_append, List.foldl_cons, List.foldl_nil]
    rw [restarted] at hi
    rw [hi]
    cases event with
    | operate operation =>
      cases operation with
      | start => exact absurd rfl he
      | _ => rfl
    | _ => rfl

/-! ## The wake-up that is owed -/

/-- Consumer `i` is sure to look: it is awake, or parked while a wake-up of all is owed. -/
def Owed (s : Consumers α) (i : Nat) (deadline : Option Instant) : Prop :=
  s.phases[i]? = some (.parked deadline) ∧ 0 < s.wakeAlls ∨
    s.phases[i]? = some (.awake deadline)

theorem wakeAlls_step_le {event : Event α} (he : event ≠ .wakeAll) :
    s.wakeAlls ≤ (s.step event).wakeAlls := by
  have hm := s.step_move event
  generalize s.step event = t at hm ⊢
  cases hm with
  | operate operation => exact Nat.le_add_right _ _
  | wakeAll hw => exact absurd rfl he
  | _ => exact Nat.le_refl _

theorem step_wakeAll (hi : s.phases[i]? = some (.parked deadline)) (hw : 0 < s.wakeAlls) :
    (s.step .wakeAll).phases[i]? = some (.awake deadline) := by
  rw [show s.step .wakeAll =
    { s with wakeAlls := s.wakeAlls - 1, phases := s.phases.map woken } from
      if_neg (Nat.ne_of_gt hw)]
  simp only [List.getElem?_map, hi, Option.map_some, woken]

theorem Owed.step {event : Event α} (h : s.Owed i deadline)
    (he : event = .look i → s.awakeAt i = false) : (s.step event).Owed i deadline := by
  rcases h with ⟨hi, hw⟩ | hi
  · by_cases hall : event = .wakeAll
    · subst hall
      exact .inr (step_wakeAll hi hw)
    · rcases parked_step event hi with hi | hi
      · exact .inl ⟨hi, Nat.lt_of_lt_of_le hw (wakeAlls_step_le hall)⟩
      · exact .inr hi
  · refine .inr (awake_step hi fun hl => ?_)
    exact absurd ((he hl).symm.trans (awakeAt_iff.2 ⟨_, hi⟩)) Bool.false_ne_true

theorem owed_stop (hi : s.phases[i]? = some (.parked deadline)) :
    (s.step (.operate .stop)).Owed i deadline := .inl ⟨hi, Nat.succ_pos _⟩

/-! ## Up to the first look -/

/-- In a run of events from `s` consumer `i` has not looked: no look of it came when it was
awake. -/
def Unlooked (s : Consumers α) (events : List (Event α)) (i : Nat) : Prop :=
  ∀ earlier, earlier ++ [.look i] <+: events → (s.steps earlier).awakeAt i = false

theorem unlooked_of_notMem {events : List (Event α)} (h : .look i ∉ events) :
    s.Unlooked events i := fun _ hp =>
  absurd (hp.subset (List.mem_append_right _ (List.mem_singleton_self _))) h

theorem Unlooked.of_concat {events : List (Event α)} {event : Event α}
    (h : s.Unlooked (events ++ [event]) i) : s.Unlooked events i := fun earlier hp =>
  h earlier (hp.trans (List.prefix_append events [event]))

/-- A consumer that is owed a look is owed it until it looks. -/
theorem owed_steps {events : List (Event α)} (h : s.Owed i deadline)
    (hu : s.Unlooked events i) : (s.steps events).Owed i deadline := by
  induction events using List.reverseRecOn with
  | nil => exact h
  | append_singleton events event ih =>
    rw [steps_concat]
    refine (ih hu.of_concat).step fun he => ?_
    subst he
    exact hu events (List.prefix_refl _)

/-! ## The first look -/

theorem left_steps {frame : Option α} (hi : s.phases[i]? = some (.left frame))
    (events : List (Event α)) : (s.steps events).phases[i]? = some (.left frame) := by
  induction events generalizing s with
  | nil => exact hi
  | cons event events ih => exact ih (left_step event hi)

/-- A consumer that looks leaves with nothing exactly if the queue is stopped, or has no frame when
the consumer's time is up. -/
theorem step_look_left_none_iff (hi : s.phases[i]? = some (.awake deadline)) :
    (s.step (.look i)).phases[i]? = some (.left none) ↔
      s.queue.running = false ∨ s.queue.frames = [] ∧ timeUp deadline s.now = true := by
  obtain ⟨hl, -⟩ := List.getElem?_eq_some_iff.1 hi
  cases hr : s.queue.running with
  | false => simp [step_look_stopped hi hr, hl]
  | true =>
    cases hf : s.queue.frames with
    | cons frame rest => simp [step_look_frame hi hr hf, hl]
    | nil =>
      cases ht : timeUp deadline s.now with
      | true => simp [step_look_late hi hr hf ht, hl]
      | false => simp [step_look_wait hi hr hf ht, hl]

/-- A consumer that looks is gone for good with nothing exactly if it leaves with nothing then. -/
theorem gone_iff :
    (∀ later, (s.steps (.look i :: later)).phases[i]? = some (.left none)) ↔
      (s.step (.look i)).phases[i]? = some (.left none) :=
  ⟨fun h => h [], fun h later => left_steps h later⟩

theorem owed_or_left_of_not_started {events : List (Event α)}
    (hi : s.phases[i]? = some (.parked deadline)) (h : ∀ e ∈ events, e ≠ .operate .start) :
    ((s.step (.operate .stop)).steps events).Owed i deadline ∨
      ((s.step (.operate .stop)).steps events).phases[i]? = some (.left none) := by
  induction events using List.reverseRecOn with
  | nil => exact .inl (owed_stop hi)
  | append_singleton events event ih =>
    have hs : ∀ e ∈ events, e ≠ .operate .start := fun e he => h e (List.mem_append_left _ he)
    rw [steps_concat]
    rcases ih hs with ho | hl
    · by_cases he : event = .look i
      · subst he
        rcases ho with ho | ha
        · exact .inl (Owed.step (.inl ho) fun _ => awakeAt_of_parked ho.1)
        · refine .inr ((step_look_left_none_iff ha).2 (.inl ?_))
          rw [running_steps_stop, restarted_eq_false hs]
      · exact .inl (ho.step fun hl => absurd hl he)
    · exact .inr (left_step event hl)

/-- Whom a stop releases. A consumer that is parked when the queue is stopped is awake, or has a
wake-up owed to it, until it looks. Once it looks it is gone for good with nothing exactly if the
queue has not been started again by then, or has no frame and the consumer's time is up. Without a
start it is never anything but on its way to look, or gone with nothing. -/
theorem released_iff (hi : s.phases[i]? = some (.parked deadline)) (events : List (Event α)) :
    let stopped := s.step (.operate .stop)
    let t := stopped.steps events
    (stopped.Unlooked events i →
      t.Owed i deadline ∧
        (t.phases[i]? = some (.awake deadline) →
          ((∀ later, (stopped.steps (events ++ .look i :: later)).phases[i]? =
              some (.left none)) ↔
            restarted events = false ∨
              t.queue.frames = [] ∧ timeUp deadline t.now = true))) ∧
      ((∀ e ∈ events, e ≠ .operate .start) →
        t.Owed i deadline ∨ t.phases[i]? = some (.left none)) := by
  intro stopped t
  refine ⟨fun hu => ⟨owed_steps (owed_stop hi) hu, fun ha => ?_⟩,
    owed_or_left_of_not_started hi⟩
  have hr : t.queue.running = restarted events := running_steps_stop s events
  rw [← hr, ← step_look_left_none_iff ha, ← gone_iff]
  simp only [steps_append, t]

/-- A queue that is started, given a frame and stopped again releases a consumer all the same, and
so does one that is not started again. -/
theorem released_iff_stopped_again :
    let s : Consumers Nat := (ofQueue (.ofMaxCount 0) 0).steps [.call 0, .look 0]
    let stopped := s.step (.operate .stop)
    let events : List (Event Nat) :=
      [.operate .start, .operate (.enqueue 7), .operate .stop, .wake 0]
    s.queue.running = true ∧ s.phases[0]? = some (.parked none) ∧
      stopped.Unlooked events 0 ∧ (stopped.steps events).phases[0]? = some (.awake none) ∧
      (∀ later, (stopped.steps (events ++ .look 0 :: later)).phases[0]? = some (.left none)) ∧
      (∀ e ∈ ([.wakeAll, .look 0] : List (Event Nat)), e ≠ .operate .start) ∧
      ((stopped.steps [.wakeAll, .look 0]).Owed 0 none ∨
        (stopped.steps [.wakeAll, .look 0]).phases[0]? = some (.left none)) := by
  intro s stopped events
  have hi : s.phases[0]? = some (.parked none) := by decide
  have hu : stopped.Unlooked events 0 := unlooked_of_notMem (by decide)
  have ha : (stopped.steps events).phases[0]? = some (.awake none) := by decide
  have hn : ∀ e ∈ ([.wakeAll, .look 0] : List (Event Nat)), e ≠ .operate .start := by decide
  exact ⟨by decide, hi, hu, ha, (((released_iff hi events).1 hu).2 ha).2 (.inl (by decide)), hn,
    (released_iff hi [.wakeAll, .look 0]).2 hn⟩

/-- A stop need not release whom it finds parked: a consumer that looks after the queue has been
started again leaves with a frame that came meanwhile, and without one it is parked again. -/
theorem served_after_stop :
    let s : Consumers Nat := (ofQueue (.ofMaxCount 0) 0).steps [.call 0, .look 0]
    let stopped := s.step (.operate .stop)
    s.queue.running = true ∧ s.phases[0]? = some (.parked none) ∧
      (stopped.steps [.operate .start, .operate (.enqueue 7), .wakeAll, .look 0]).phases[0]? =
        some (.left (some 7)) ∧
      (stopped.steps [.operate .start, .wakeAll, .look 0]).phases[0]? = some (.parked none) := by
  decide

end Consumers

end RadarHost
