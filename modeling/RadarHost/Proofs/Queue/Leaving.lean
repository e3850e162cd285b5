import RadarHost.Proofs.Queue.Release

/-!
# Why a consumer leaves

A consumer that has called for a frame looks at the queue, is parked, is woken and looks again, any
number of times, while others do to the queue what they please. Only a look lets it leave, and only
what it finds then matters, not why it was woken: `Finds` says what has to be found for it to leave
with a frame or with nothing. Each look that finds it is the last (`lastLook_of_finds`), and a
consumer that has not left yet is awake or parked until the same end of its wait
(`waiting_or_left`). So a consumer leaves with nothing only from a queue that is stopped, or from
one without a frame when its time is up (`leaves_for_a_reason`).
-/

namespace RadarHost

namespace Consumers

variable {α : Type} {s : Consumers α} {i : Nat} {since : Instant} {timeout : Duration}
  {got : Option α}

/-- The end of a wait has come if the timeout is not zero and not too long for there to be an
end. -/
theorem timeUp_waitEnd? {now : Instant} :
    timeUp (Instant.waitEnd? since timeout) now = true ↔
      timeout ≠ 0 ∧ since + timeout ≤ Instant.horizon ∧ since + timeout ≤ now := by
  unfold Instant.waitEnd?
  split
  · rename_i hnever
    refine iff_of_false Bool.false_ne_true fun ⟨hpos, hrep, _⟩ => ?_
    exact hnever.elim hpos (Nat.not_lt_of_le hrep)
  · rename_i hever
    rw [not_or, Nat.not_lt] at hever
    rw [timeUp, Option.any_some, decide_eq_true_iff]
    exact ⟨fun hup => ⟨hever.1, hever.2, hup⟩, fun h => h.2.2⟩

/-! ## One look -/

/-- What a consumer that called at an instant with a timeout has to find for it to leave. With a
frame: the queue runs, and that is its oldest frame. With nothing: the queue is stopped, or it has
no frame and the time is up, which it never is for a timeout of zero and for one past the
horizon. -/
def Finds (s : Consumers α) (since : Instant) (timeout : Duration) : Option α → Prop
  | some frame => s.queue.running = true ∧ s.queue.frames.head? = some frame
  | none =>
    s.queue.running = false ∨
      s.queue.frames = [] ∧ timeout ≠ 0 ∧ since + timeout ≤ Instant.horizon ∧
        since + timeout ≤ s.now

/-- A consumer on its way: it is awake, or parked, until the end of its wait. -/
def Waiting (s : Consumers α) (i : Nat) (since : Instant) (timeout : Duration) : Prop :=
  s.phases[i]? = some (.awake (Instant.waitEnd? since timeout)) ∨
    s.phases[i]? = some (.parked (Instant.waitEnd? since timeout))

/-- A look by which a consumer leaves takes what the consumer leaves with from the front of the
queue. -/
theorem step_look_of_finds (hi : s.phases[i]? = some (.awake (Instant.waitEnd? since timeout)))
    (hf : s.Finds since timeout got) :
    (s.step (.look i)).phases[i]? = some (.left got) ∧
      s.queue.frames = got.toList ++ (s.step (.look i)).queue.frames := by
  obtain ⟨hl, -⟩ := List.getElem?_eq_some_iff.1 hi
  cases got with
  | some frame =>
    obtain ⟨hrun, hhead⟩ := hf
    obtain ⟨rest, hframes⟩ := List.head?_eq_some_iff.1 hhead
    rw [step_look_frame hi hrun hframes]
    exact ⟨List.getElem?_set_self hl, hframes⟩
  | none =>
    cases hrun : s.queue.running with
    | false =>
      rw [step_look_stopped hi hrun]
      exact ⟨List.getElem?_set_self hl, rfl⟩
    | true =>
      obtain hstop | ⟨hframes, hup⟩ := hf
      · cases hrun.symm.trans hstop
      · rw [step_look_late hi hrun hframes (timeUp_waitEnd?.2 hup)]
        exact ⟨List.getElem?_set_self hl, rfl⟩

/-- A consumer that looks finds something to leave with, or goes on waiting. -/
theorem finds_or_waiting
    (hi : s.phases[i]? = some (.awake (Instant.waitEnd? since timeout))) :
    (∃ got, s.Finds since timeout got) ∨ (s.step (.look i)).Waiting i since timeout := by
  obtain ⟨hl, -⟩ := List.getElem?_eq_some_iff.1 hi
  cases hrun : s.queue.running with
  | false => exact .inl ⟨none, .inl hrun⟩
  | true =>
    cases hframes : s.queue.frames with
    | cons frame rest => exact .inl ⟨some frame, hrun, congrArg List.head? hframes⟩
    | nil =>
      cases hup : timeUp (Instant.waitEnd? since timeout) s.now with
      | true => exact .inl ⟨none, .inr ⟨hframes, timeUp_waitEnd?.1 hup⟩⟩
      | false =>
        rw [step_look_wait hi hrun hframes hup]
        exact .inr (.inr (List.getElem?_set_self hl))

/-! ## The last look -/

/-- The look of a consumer after some events is its last: it finds what it leaves with, takes that
from the front of the queue, and is gone with it whatever comes then. -/
structure LastLook (s : Consumers α) (i : Nat) (since : Instant) (timeout : Duration)
    (earlier : List (Event α)) (got : Option α) : Prop where
  awake : (s.steps earlier).phases[i]? = some (.awake (Instant.waitEnd? since timeout))
  finds : (s.steps earlier).Finds since timeout got
  takes : (s.steps earlier).queue.frames =
    got.toList ++ ((s.steps earlier).step (.look i)).queue.frames
  gone : ∀ later, (s.steps (earlier ++ .look i :: later)).phases[i]? = some (.left got)

theorem lastLook_of_finds {earlier : List (Event α)}
    (hi : (s.steps earlier).phases[i]? = some (.awake (Instant.waitEnd? since timeout)))
    (hf : (s.steps earlier).Finds since timeout got) :
    s.LastLook i since timeout earlier got where
  awake := hi
  finds := hf
  takes := (step_look_of_finds hi hf).2
  gone later := by
    rw [steps_append]
    exact left_steps (step_look_of_finds hi hf).1 later

/-- A consumer on its way stays so through an event, or the event is its last look. -/
theorem waiting_step {events : List (Event α)} (event : Event α)
    (h : (s.steps events).Waiting i since timeout) :
    (s.steps (events ++ [event])).Waiting i since timeout ∨
      event = .look i ∧ ∃ got, s.LastLook i since timeout events got := by
  rw [steps_concat]
  obtain hi | hi := h
  · by_cases he : event = .look i
    · subst he
      obtain ⟨got, hf⟩ | hw := finds_or_waiting hi
      · exact .inr ⟨rfl, got, lastLook_of_finds hi hf⟩
      · exact .inl hw
    · exact .inl (.inl (awake_step hi he))
  · exact .inl (parked_step event hi).symm

/-- After any events a consumer is on its way, or has had its last look among them. -/
theorem waiting_or_left (h : s.Waiting i since timeout) (events : List (Event α)) :
    (s.steps events).Waiting i since timeout ∨
      ∃ earlier later got, events = earlier ++ .look i :: later ∧
        s.LastLook i since timeout earlier got := by
  induction events using List.reverseRecOn with
  | nil => exact .inl h
  | append_singleton events event ih =>
    obtain hw | ⟨earlier, later, got, rfl, hlast⟩ := ih
    · obtain hw | ⟨rfl, got, hlast⟩ := waiting_step event hw
      · exact .inl hw
      · exact .inr ⟨events, [], got, rfl, hlast⟩
    · exact .inr ⟨earlier, later ++ [event], got, by rw [List.append_assoc]; rfl, hlast⟩

theorem not_waiting_of_left (hi : s.phases[i]? = some (.left got)) :
    ¬ s.Waiting i since timeout := by
  rintro (h | h) <;> cases hi.symm.trans h

/-- Whatever others do, whoever else waits, and however often a consumer is woken for nothing: it
leaves by a look, and with what it finds then. With nothing it leaves only if the queue is stopped
at that look, or has no frame and the time since its call has reached the timeout; if the timeout is
zero, or past the horizon, only if the queue is stopped. A look that finds a frame in a running
queue lets it leave with that frame, the oldest one, though its time be up. -/
theorem leaves_for_a_reason (s : Consumers α) (timeout : Duration) (events : List (Event α)) :
    let i := s.phases.length
    let called := s.step (.call timeout)
    (∀ got, (called.steps events).phases[i]? = some (.left got) →
      ∃ earlier later, events = earlier ++ .look i :: later ∧
        called.LastLook i s.now timeout earlier got) ∧
      ∀ earlier, (called.steps earlier).awakeAt i = true →
        ∀ got, (called.steps earlier).Finds s.now timeout got →
          called.LastLook i s.now timeout earlier got := by
  intro i called
  have hcall : called.Waiting i s.now timeout :=
    .inl ((List.getElem?_append_right (Nat.le_refl _)).trans (by rw [Nat.sub_self]; rfl))
  refine ⟨fun got hgot => ?_, fun earlier ha got hf => ?_⟩
  · obtain hw | ⟨earlier, later, got', rfl, hlast⟩ := waiting_or_left hcall events
    · exact absurd hw (not_waiting_of_left hgot)
    · cases (hlast.gone later).symm.trans hgot
      exact ⟨earlier, later, rfl, hlast⟩
  · obtain ⟨deadline, hi⟩ := awakeAt_iff.1 ha
    obtain hw | ⟨before, after, got', rfl, hlast⟩ := waiting_or_left hcall earlier
    · obtain hw | hw := hw
      · exact lastLook_of_finds hw hf
      · cases hi.symm.trans hw
    · cases hi.symm.trans (hlast.gone after)

/-- A frame goes to another consumer that waits, and then time passes. A consumer that is woken
late, and finds a frame for which an older one was evicted, leaves with it; one that is woken late
and finds none leaves with nothing. -/
theorem leaves_for_a_reason_late :
    let s : Consumers Nat := (ofQueue (.ofMaxCount 1) 0).steps [.call 0, .look 0]
    let called := s.step (.call 5)
    let beaten : List (Event Nat) :=
      [.look 1, .operate (.enqueue 7), .wakeOne 0, .wake 1, .look 0, .look 1, .pass 9]
    let served := beaten ++ [.operate (.enqueue 8), .operate (.enqueue 9), .wakeOne 1]
    (called.steps served).awakeAt 1 = true ∧ (called.steps served).Finds 0 5 (some 9) ∧
      (called.steps served).now = 9 ∧ called.LastLook 1 0 5 served (some 9) ∧
      (called.steps (beaten ++ [.wake 1, .look 1])).phases[1]? = some (.left none) ∧
      ∃ earlier later, beaten ++ [.wake 1, .look 1] = earlier ++ .look 1 :: later ∧
        called.LastLook 1 0 5 earlier none := by
  intro s called beaten served
  have hawake : (called.steps served).awakeAt 1 = true := by decide
  have hfinds : (called.steps served).Finds 0 5 (some 9) := ⟨by decide, by decide⟩
  have hleft : (called.steps (beaten ++ [.wake 1, .look 1])).phases[1]? = some (.left none) := by
    decide
  have hleaves := leaves_for_a_reason s 5 (beaten ++ [.wake 1, .look 1])
  dsimp only at hleaves
  rw [show s.phases.length = 1 by decide, show s.now = 0 by decide] at hleaves
  exact ⟨hawake, hfinds, by decide, hleaves.2 served hawake (some 9) hfinds, hleft,
    hleaves.1 none hleft⟩

end Consumers

end RadarHost
