import Mathlib.Data.Finset.Card
import Mathlib.Data.List.Infix
import RadarHost.Proofs.Queue.Steps

/-!
# No wake-up is lost

An operation and the wake-up that it owes are two steps, and a wake-up of one may reach a consumer
that comes too late, or nobody. Whoever is parked is looked after all the same: either a wake-up of
all is owed, or the queue runs and each of its frames has a wake-up of one that is owed for it or
a consumer that was woken and has yet to look (`Attended`). A step keeps that (`attended_step`),
so it holds after every run (`attended_steps`); when nothing is owed and nobody who was woken has
yet to look, whoever is parked waits for a frame of a queue that runs and has none
(`parkedAt_of_quiet`).
-/

namespace RadarHost

namespace Consumers

variable {α : Type}

/-- Whether consumer `i` is awake at the end of a run in which it has been parked: it was woken,
and has yet to look at the queue again. -/
def roused (s : Consumers α) (events : List (Event α)) (i : Nat) : Bool :=
  (s.steps events).awakeAt i && events.inits.any fun earlier => (s.steps earlier).parkedAt i

/-- No wake-up is under way at the end of a run. -/
structure Quiet (s : Consumers α) (events : List (Event α)) : Prop where
  ones : (s.steps events).wakeOnes = 0
  alls : (s.steps events).wakeAlls = 0
  roused : ∀ i, s.roused events i = false

/-- If somebody is parked, a wake-up of all is owed, or each frame of the running queue has an owed
wake-up of one or a consumer that was woken. -/
def Attended (s : Consumers α) (roused : Nat → Prop) : Prop :=
  s.phases.any isParked = true →
    0 < s.wakeAlls ∨
      s.queue.running = true ∧
        ∃ lookers : Finset Nat, (∀ i ∈ lookers, roused i) ∧
          s.queue.frames.length ≤ s.wakeOnes + lookers.card

/-! ## Who is parked -/

theorem any_isParked_set {phases : List (Phase α)} {i : Nat} {phase : Phase α}
    (hp : isParked phase = false) (h : (phases.set i phase).any isParked = true) :
    phases.any isParked = true := by
  obtain ⟨x, hx, hxp⟩ := List.any_eq_true.1 h
  rcases List.mem_or_eq_of_mem_set hx with hx | rfl
  · exact List.any_eq_true.2 ⟨x, hx, hxp⟩
  · rw [hp] at hxp
    cases hxp

theorem any_isParked_map_woken (phases : List (Phase α)) :
    (phases.map woken).any isParked = false := by
  rw [List.any_map, List.any_eq_false]
  intro phase _
  cases phase <;> simp [woken, isParked]

theorem any_isParked_of_parkedAt {s : Consumers α} {i : Nat} (h : s.parkedAt i = true) :
    s.phases.any isParked = true := by
  obtain ⟨d, hd⟩ := parkedAt_iff.1 h
  exact List.any_eq_true.2 ⟨_, List.mem_of_getElem? hd, rfl⟩

theorem exists_parkedAt {s : Consumers α} (h : s.phases.any isParked = true) :
    ∃ i, s.parkedAt i = true := by
  obtain ⟨phase, hm, hp⟩ := List.any_eq_true.1 h
  obtain ⟨i, hi⟩ := List.getElem?_of_mem hm
  exact ⟨i, by rw [parkedAt, hi]; exact hp⟩

/-! ## One step -/

/-- How the consumers that have been woken go on through a step: whoever was woken before, or was
parked, has been woken after it if it is awake then. -/
structure Rouses (s : Consumers α) (event : Event α) (before after : Nat → Prop) : Prop where
  awake : ∀ i, before i → s.awakeAt i = true
  keep : ∀ i, before i → (s.step event).awakeAt i = true → after i
  wake : ∀ i, s.parkedAt i = true → (s.step event).awakeAt i = true → after i

variable {s : Consumers α} {event : Event α} {before after : Nat → Prop}

theorem Rouses.of_ne_look (h : Rouses s event before after) {i : Nat} (hb : before i)
    (he : event ≠ .look i) : after i := by
  obtain ⟨d, hd⟩ := awakeAt_iff.1 (h.awake i hb)
  exact h.keep i hb (awakeAt_iff.2 ⟨d, awake_step hd he⟩)

/-- A step that leaves the queue and what is owed alone. -/
theorem attended_of_same {t : Consumers α} (h : Attended s before)
    (hp : s.phases.any isParked = true) (hb : ∀ i, before i → after i) (hq : t.queue = s.queue)
    (ho : t.wakeOnes = s.wakeOnes) (ha : t.wakeAlls = s.wakeAlls) : Attended t after := by
  intro _
  rw [hq, ho, ha]
  rcases h hp with ha | ⟨hrun, lookers, hl, hc⟩
  · exact .inl ha
  · exact .inr ⟨hrun, lookers, fun i hi => hb i (hl i hi), hc⟩

theorem attended_step (hr : Rouses s event before after) (h : Attended s before) :
    Attended (s.step event) after := by
  have hm := s.step_move event
  generalize ht : s.step event = t at hm ⊢
  intro hp
  cases hm with
  | operate operation =>
    by_cases hs : operation = .stop
    · subst hs
      exact .inl (Nat.succ_pos _)
    · rcases h hp with ha | ⟨hrun, lookers, hl, hc⟩
      · exact .inl (Nat.lt_of_lt_of_le ha (Nat.le_add_right _ _))
      · refine .inr ⟨FrameQueue.running_apply_of_ne_stop hrun hs, lookers,
          fun i hi => hr.of_ne_look (hl i hi) (by simp), ?_⟩
        have := s.queue.length_apply_le operation
        simp only
        omega
  | call timeout =>
    have hp' : s.phases.any isParked = true := by simpa [isParked] using hp
    exact attended_of_same h hp' (fun i hi => hr.of_ne_look hi (by simp)) rfl rfl rfl hp
  | stopped hi hstop =>
    rcases h (any_isParked_set rfl hp) with ha | ⟨hrun, -⟩
    · exact .inl ha
    · rw [hstop] at hrun
      cases hrun
  | @served i _ frame rest hi hrun hf =>
    rcases h (any_isParked_set rfl hp) with ha | ⟨-, lookers, hl, hc⟩
    · exact .inl ha
    · -- one frame less, and one less who was woken, if the consumer that looked was one
      refine .inr ⟨hrun, lookers.erase i, fun j hj => ?_, ?_⟩
      · obtain ⟨hne, hj⟩ := Finset.mem_erase.1 hj
        exact hr.of_ne_look (hl j hj) fun e => hne (Event.look.inj e).symm
      · have := Finset.pred_card_le_card_erase (s := lookers) (a := i)
        rw [hf, List.length_cons] at hc
        simp only
        omega
  -- a consumer that finds no frame: there is none that anybody has to be woken for
  | late hi hrun hf => exact .inr ⟨hrun, ∅, by simp, by simp [hf]⟩
  | park hi hrun hf => exact .inr ⟨hrun, ∅, by simp, by simp [hf]⟩
  | @wakeOne i deadline hi hw =>
    rcases h (any_isParked_set rfl hp) with ha | ⟨hrun, lookers, hl, hc⟩
    · exact .inl ha
    · -- one wake-up less is owed, and one more has been woken
      have hpi : s.parkedAt i = true := parkedAt_iff.2 ⟨deadline, hi⟩
      have hni : i ∉ lookers := fun hm =>
        absurd ((awakeAt_of_parked hi).symm.trans (hr.awake i (hl i hm))) Bool.false_ne_true
      refine .inr ⟨hrun, insert i lookers, fun j hj => ?_, ?_⟩
      · rcases Finset.mem_insert.1 hj with rfl | hj
        · refine hr.wake j hpi (awakeAt_iff.2 ⟨deadline, ?_⟩)
          rw [ht]
          exact List.getElem?_set_self (List.getElem?_eq_some_iff.1 hi).1
        · exact hr.of_ne_look (hl j hj) (by simp)
      · rw [Finset.card_insert_of_notMem hni]
        simp only
        omega
  | wakeNobody hn =>
    obtain ⟨i, hi⟩ := exists_parkedAt hp
    exact absurd ((hn i).symm.trans hi) Bool.false_ne_true
  | wakeAll hw =>
    rw [any_isParked_map_woken] at hp
    cases hp
  | wake hi =>
    exact attended_of_same h (any_isParked_set rfl hp) (fun j hj => hr.of_ne_look hj (by simp))
      rfl rfl rfl hp
  | pass time => exact attended_of_same h hp (fun i hi => hr.of_ne_look hi (by simp)) rfl rfl rfl hp
  | idle =>
    refine attended_of_same h hp (fun i hi => hr.keep i hi ?_) rfl rfl rfl hp
    rw [ht]
    exact hr.awake i hi

/-! ## Runs -/

theorem roused_iff {s : Consumers α} {events : List (Event α)} {i : Nat} :
    s.roused events i = true ↔
      (s.steps events).awakeAt i = true ∧
        ∃ earlier, earlier <+: events ∧ (s.steps earlier).parkedAt i = true := by
  simp only [roused, Bool.and_eq_true, List.any_eq_true, List.mem_inits]

theorem rouses_concat (s : Consumers α) (events : List (Event α)) (event : Event α) :
    Rouses (s.steps events) event (s.roused events · = true)
      (s.roused (events ++ [event]) · = true) where
  awake i h := (roused_iff.1 h).1
  keep i h ha := by
    obtain ⟨-, earlier, he, hp⟩ := roused_iff.1 h
    exact roused_iff.2 ⟨steps_concat s events event ▸ ha, earlier,
      he.trans (List.prefix_append events [event]), hp⟩
  wake i hp ha :=
    roused_iff.2 ⟨steps_concat s events event ▸ ha, events, List.prefix_append events [event], hp⟩

theorem attended_steps (queue : FrameQueue α) (now : Instant) (events : List (Event α)) :
    Attended ((ofQueue queue now).steps events) ((ofQueue queue now).roused events · = true) := by
  induction events using List.reverseRecOn with
  | nil =>
    intro hp
    cases hp
  | append_singleton events event ih =>
    rw [steps_concat]
    exact attended_step (rouses_concat _ events event) ih

/-- When nothing is owed and nobody has been woken, whoever is parked waits for a frame of a
running queue that has none. -/
theorem Attended.frames_eq_nil {s : Consumers α} {roused : Nat → Prop} (h : Attended s roused)
    (hp : s.phases.any isParked = true) (ho : s.wakeOnes = 0) (ha : s.wakeAlls = 0)
    (hn : ∀ i, ¬ roused i) : s.queue.running = true ∧ s.queue.frames = [] := by
  rcases h hp with ha' | ⟨hrun, lookers, hl, hc⟩
  · omega
  · have he : lookers = ∅ := Finset.eq_empty_of_forall_notMem fun i hi => hn i (hl i hi)
    rw [he, Finset.card_empty, ho] at hc
    exact ⟨hrun, List.length_eq_zero_iff.1 (Nat.le_zero.1 hc)⟩

/-- No wake-up is lost: when none is under way, nobody is parked at a queue that is stopped, and
nobody at one that runs and has frames. -/
theorem parkedAt_of_quiet (queue : FrameQueue α) (now : Instant) (events : List (Event α))
    (hq : Quiet (ofQueue queue now) events) :
    let s := (ofQueue queue now).steps events
    (s.queue.running = false → ∀ i, s.parkedAt i = false) ∧
      (s.queue.running = true → s.queue.frames ≠ [] → ∀ i, s.parkedAt i = false) := by
  intro s
  have h : ∀ i, s.parkedAt i = true → s.queue.running = true ∧ s.queue.frames = [] := fun i hi =>
    (attended_steps queue now events).frames_eq_nil (any_isParked_of_parkedAt hi) hq.ones hq.alls
      fun j hj => absurd ((hq.roused j).symm.trans hj) Bool.false_ne_true
  refine ⟨fun hrun i => ?_, fun _ hf i => ?_⟩
  · by_contra hi
    rw [(h i (eq_true_of_ne_false hi)).1] at hrun
    cases hrun
  · by_contra hi
    exact hf (h i (eq_true_of_ne_false hi)).2

/-- Two consumers are parked when a frame comes, and the queue is stopped and started again before
either wakes: one is served and the other parked again, while a third has called and not looked. -/
theorem parkedAt_of_quiet_restarted :
    let events : List (Event Nat) :=
      [.call 0, .call 0, .look 0, .look 1, .operate (.enqueue 7), .operate .stop, .operate .start,
        .wakeOne 1, .look 1, .wakeAll, .look 0, .call 5]
    let s := (ofQueue (.ofMaxCount 1) 0).steps events
    Quiet (ofQueue (.ofMaxCount 1) 0) events ∧ s.parkedAt 0 = true ∧
      (s.queue.running = false → ∀ i, s.parkedAt i = false) ∧
      (s.queue.running = true → s.queue.frames ≠ [] → ∀ i, s.parkedAt i = false) := by
  intro events s
  have hq : Quiet (ofQueue (.ofMaxCount 1) 0) events := by
    refine ⟨by decide, by decide, fun i => ?_⟩
    by_cases hi : i < 3
    · exact (by decide : ∀ i < 3, (ofQueue (.ofMaxCount 1) 0).roused events i = false) i hi
    · have hl : s.phases.length = 3 := by decide
      have hn : s.phases[i]? = none := List.getElem?_eq_none (by omega)
      simp [roused, awakeAt, s, hn]
  exact ⟨hq, by decide, parkedAt_of_quiet (.ofMaxCount 1) 0 events hq⟩

end Consumers

end RadarHost
