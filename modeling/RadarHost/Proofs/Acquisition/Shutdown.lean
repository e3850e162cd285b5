import RadarHost.Proofs.Acquisition.Doings
import RadarHost.Proofs.Queue.Release

/-!
# All or nothing

When the producer has ended, whoever stops the acquisition or lets go of it tells the board to stop
and stops the queue (`Acquisition.did_finish`, `Acquisition.did_drop`). Behind its last stop a queue
is offered nothing more (`Along.released`).

With what a start and a producer do, this is all that an acquisition has done from its start until
it is shut down (`Acquisition.Concluded`). `Acquisition.all_or_nothing` says so for every line and
for whatever others do to the queue meanwhile.
-/

namespace RadarHost

open Dialogue

/-! ## The queue -/

/-- The first exchange of a course that does nothing to the queue, and the others. -/
theorem Dialogue.operations_cons_eq_nil {x : Exchange} {course : List Exchange}
    (h : operations (x :: course) = []) : x.1.operation? = none ∧ operations course = [] := by
  have hx : x.1.operation? = none := List.filterMap_eq_nil_iff.1 h x List.mem_cons_self
  refine ⟨hx, ?_⟩
  rwa [operations, List.filterMap_cons_none (f := fun x : Exchange => x.1.operation?) hx] at h

/-- While a course does nothing to the queue, only others take steps on it. -/
theorem Along.steps_of_idle {shared shared' : Shared} {course : List Exchange}
    (h : Along shared course shared') (hn : operations course = []) :
    ∃ events, (∀ event ∈ events, event.offered? = none) ∧
      shared'.record = shared.record ++ events ∧
      shared'.consumers = shared.consumers.steps events := by
  induction h with
  | nil shared => exact ⟨[], List.forall_mem_nil _, (List.append_nil _).symm, rfl⟩
  | @cons shared shared' events x course offerless honest h ih =>
    obtain ⟨hx, hcourse⟩ := operations_cons_eq_nil hn
    obtain ⟨later, hlater, hrecord, hconsumers⟩ := ih hcourse
    obtain ⟨hcarry, hcarried⟩ := Shared.consumers_carry (shared.steps events) x.1
    rw [hx] at hcarry hcarried
    refine ⟨events ++ later, List.forall_mem_append.2 ⟨offerless, hlater⟩, ?_, ?_⟩
    · rw [hrecord, hcarried]
      simp only [Shared.steps, Option.toList_none, List.map_nil, List.append_nil,
        List.append_assoc]
    · rw [hconsumers, hcarry]
      exact (Consumers.steps_append shared.consumers events later).symm

/-- A queue on which nobody takes a step stays as it was. -/
theorem consumers_of_alone {α σ : Type} {answer : Surroundings σ} {others : Others σ}
    (alone : ∀ world shared, others.steps world shared = []) {d : Dialogue α} {world : σ}
    {shared : Shared} (hn : operations (d.course (beside answer others) (world, shared)) = []) :
    (d.run (beside answer others) (world, shared)).2.2.consumers = shared.consumers := by
  induction d generalizing world shared with
  | done value => rfl
  | broken why => rfl
  | ask action next ih =>
    obtain ⟨haction, hcourse⟩ := operations_cons_eq_nil hn
    refine (ih _ hcourse).trans ?_
    obtain ⟨hcarry, -⟩ :=
      Shared.consumers_carry (shared.steps (others.steps world shared)) action
    rw [show action.operation? = none from haction, alone] at hcarry
    show ((shared.steps (others.steps world shared)).carry action).consumers = _
    rw [alone]
    exact hcarry

/-- The queue has been stopped, and nobody has offered it a frame since. It is stopped still unless
somebody has started it again. -/
def Released (consumers : Consumers Frame) (shared : Shared) : Prop :=
  shared.consumers = consumers.steps shared.record ∧
    ∃ earlier later, shared.record = earlier ++ .operate .stop :: later ∧
      (∀ event ∈ later, event.offered? = none) ∧
      ((∀ event ∈ later, event ≠ .operate .start) → shared.consumers.queue.running = false)

/-- A queue whose last operation was to be stopped has been stopped. -/
theorem Along.released {consumers : Consumers Frame} {shared : Shared} {course : List Exchange}
    {done : List (FrameQueue.Operation Frame)} (h : Along (.ofConsumers consumers) course shared)
    (ho : operations course = done ++ [.stop]) : Released consumers shared := by
  refine ⟨h.consumers_eq.1, ?_⟩
  obtain ⟨before, rest, rfl, -, hrest⟩ := List.filterMap_eq_append_iff.1 ho
  obtain ⟨idle, ⟨action, answer⟩, after, rfl, -, hstop, hafter⟩ :=
    List.filterMap_eq_cons_iff.1 hrest
  cases action <;> cases hstop
  rw [← List.append_assoc] at h
  obtain ⟨mid, -, hlast⟩ := h.exists_of_append
  cases hlast with
  | @cons _ _ events _ _ offerless honest hlast =>
    obtain ⟨later, hlater, hrecord, hconsumers⟩ := hlast.steps_of_idle hafter
    refine ⟨mid.record ++ events, later, ?_, hlater, fun hstarts => ?_⟩
    · rw [hrecord]
      show mid.record ++ events ++ [_] ++ later = _
      rw [List.append_assoc]
      rfl
    · rw [hconsumers]
      exact (Consumers.running_steps_stop _ later).trans (Consumers.restarted_eq_false hstarts)

namespace Acquisition

variable {s : Session} {budget : Nat} {ending : Ending Session} {course : List Exchange}

/-! ## Shutting down -/

/-- To stop an acquisition is to end it; there is nothing left to let go of. -/
theorem stop_eq (budget : Nat) (ending : Ending Session) :
    stop budget (some ending) = finish budget ending :=
  (bind_assoc (finish budget ending) _ _).trans (bind_done _)

theorem drop_eq (budget : Nat) (ending : Ending Session) :
    drop budget (some ending) = (finish budget ending).bind Session.closeAny :=
  bind_assoc (finish budget ending) _ _

theorem did_stopBoard {e : Ending Session} (h : Follows (stopBoard budget s) course e) :
    Did course [] (s.request .stopAcquisition) 0 ∧
      Comes (fun s' => s'.line = s.line) budget course e := by
  unfold stopBoard at h
  cases hl : s.line with
  | none =>
    have hopen : s.isOpen = false := congrArg Option.isSome hl
    rw [hopen] at h
    obtain ⟨rfl, rfl⟩ := Follows.of_done h
    rw [Session.request, hl]
    exact ⟨.of_idle (List.forall_mem_nil _), hl⟩
  | some line =>
    have hopen : s.isOpen = true := congrArg Option.isSome hl
    rw [hopen, if_pos rfl] at h
    rcases Follows.of_bind (d := s.stopAcquisition budget) h with
      ⟨why, hstop, rfl⟩ | ⟨⟨_ | _, s'⟩, first, later, rfl, hstop, hrest⟩
    · exact Session.did_stopAcquisition hstop
    · obtain ⟨_, rest, rfl, hdone⟩ := Follows.of_ask hrest
      obtain ⟨rfl, rfl⟩ := Follows.of_done hdone
      obtain ⟨hdid, hline, -⟩ := Session.did_stopAcquisition hstop
      exact ⟨hdid.before (List.forall_mem_singleton.2 trivial), hline.trans hl⟩
    · obtain ⟨rfl, rfl⟩ := Follows.of_done hrest
      obtain ⟨hdid, hline, -⟩ := Session.did_stopAcquisition hstop
      rw [List.append_nil]
      exact ⟨hdid, hline.trans hl⟩

/-- What ending an acquisition comes to, told by the ending of its producer. -/
inductive FinishMakes (budget : Nat) (course : List Exchange) :
    Ending Session → Ending (Option Session) → Prop
  /-- The session is given back, and the board has been told to stop if it is open. -/
  | finished {s s' : Session} (line_eq : s'.line = s.line)
    (did : Did course [.stop] (s.request .stopAcquisition) 0) :
    FinishMakes budget course (.ok s) (.ok (some s'))
  /-- The producer has broken off, and its session is gone. -/
  | gone {why : Breakdown} (did : Did course [.stop] [] 0) :
    FinishMakes budget course (.error why) (.ok none)
  | broken {s : Session} {why : Breakdown} (shown : why.ShownBy budget (reads course))
    (did : Did course [] (s.request .stopAcquisition) s.line.toList) :
    FinishMakes budget course (.ok s) (.error why)

/-- The consumers are released, and what the acquisition has counted is reported. -/
theorem did_release {session : Option Session} {e : Ending (Option Session)}
    (h : Follows (.ask .stopQueue fun _ => .ask .stats fun stats =>
      .ask (.report (.acquisitionFinished stats)) fun _ => .done session) course e) :
    Did course [.stop] [] 0 ∧ e = .ok session := by
  obtain ⟨_, rest, rfl, hstats⟩ := Follows.of_ask h
  obtain ⟨_, rest, rfl, hreport⟩ := Follows.of_ask hstats
  obtain ⟨_, rest, rfl, hdone⟩ := Follows.of_ask hreport
  obtain ⟨rfl, rfl⟩ := Follows.of_done hdone
  exact ⟨⟨rfl, rfl, rfl, rfl⟩, rfl⟩

theorem did_finish {e : Ending (Option Session)} (h : Follows (finish budget ending) course e) :
    FinishMakes budget course ending e := by
  cases ending with
  | error why =>
    obtain ⟨_, rest, rfl, hrest⟩ := Follows.of_ask h
    obtain ⟨hdid, rfl⟩ := did_release hrest
    exact .gone (hdid.cons trivial)
  | ok s =>
    have hboard {course : List Exchange} {e : Ending Session}
        (h : Follows (protect s.discard (stopBoard budget s)) course e) :=
      Session.did_protected (s := s) (fun h => did_stopBoard h) rfl h
    rcases Follows.of_bind (d := protect s.discard (stopBoard budget s)) h with
      ⟨why, hbroken, rfl⟩ | ⟨s', first, later, rfl, hfirst, hrest⟩
    · exact .broken (hboard hbroken).2 (hboard hbroken).1
    · obtain ⟨hdid, hline⟩ := hboard hfirst
      obtain ⟨hrelease, rfl⟩ := did_release hrest
      have hall := hdid.append hrelease
      rw [List.append_nil] at hall
      exact .finished hline hall

/-- What letting go of an acquisition comes to, told by the ending of its producer. -/
inductive DropMakes (budget : Nat) (course : List Exchange) : Ending Session → Ending Unit → Prop
  | closed {s : Session} (did : Did course [.stop] (s.request .stopAcquisition) s.line.toList) :
    DropMakes budget course (.ok s) (.ok ())
  | gone {why : Breakdown} (did : Did course [.stop] [] 0) :
    DropMakes budget course (.error why) (.ok ())
  | broken {s : Session} {why : Breakdown} (shown : why.ShownBy budget (reads course))
    (did : Did course [] (s.request .stopAcquisition) s.line.toList) :
    DropMakes budget course (.ok s) (.error why)

theorem did_drop {e : Ending Unit} (h : Follows (drop budget (some ending)) course e) :
    DropMakes budget course ending e := by
  rw [drop_eq] at h
  rcases Follows.of_bind h with ⟨why, hbroken, rfl⟩ | ⟨session, first, later, rfl, hfirst, hrest⟩
  · cases did_finish hbroken with
    | broken shown did => exact .broken shown did
  · cases did_finish hfirst with
    | gone did =>
      obtain ⟨rfl, rfl⟩ := Follows.of_done hrest
      rw [List.append_nil]
      exact .gone did
    | @finished s s' line_eq did =>
      obtain ⟨rfl, rfl⟩ := Session.follows_discard hrest
      have hall := did.append s'.did_closing
      rw [List.append_nil, List.append_nil, zero_add, line_eq] at hall
      exact .closed hall

/-! ## From start to end -/

/-- A start succeeds or fails as its command does. -/
theorem run_start {σ : Type} (answer : Surroundings σ) (world : σ) (budget : Nat)
    (config : AcquisitionConfig) (s : Session) :
    ((start budget config s).run answer world).1 =
      (((s.setMaxFramePayload config.maxFramePayload).startAcquisition budget).run answer
        world).1.map fun x => x.1.map fun _ => x.2 := by
  dsimp only [start]
  generalize (s.setMaxFramePayload config.maxFramePayload).startAcquisition budget = command
  generalize s.setMaxFramePayload config.maxFramePayload = limited
  -- giving a session up does not change how the start ends, be there a line to close or not
  induction command generalizing world with
  | done x =>
    obtain ⟨result, s'⟩ := x
    obtain ⟨line, _, _, _, _, _, _, _⟩ := s'
    cases result <;> cases line <;> rfl
  | broken why =>
    obtain ⟨line, _, _, _, _, _, _, _⟩ := limited
    cases line <;> rfl
  | ask action next ih => exact ih _ _

/-- Whether a read of a course failed. -/
def failedRead (course : List Exchange) : Bool := (reads course).any (·.error?.isSome)

variable {starting producing finishing : List Exchange} {line capacity : Nat} {timeout : Duration}
  {tried : List (Nat × Bytes)} {shut also : Multiset Nat}

theorem failedRead_eq_false {pieces : List Bytes} (h : reads course = pieces.map .bytes) :
    failedRead course = false := by
  rw [failedRead, h, List.any_map, List.any_eq_false]
  exact fun _ _ => Bool.false_ne_true

theorem failedRead_eq_true {answers : List ReadAnswer} {error : TransportError}
    (h : reads course = answers ++ [.failed error]) : failedRead course = true := by
  rw [failedRead, h, List.any_append]
  exact Bool.or_true _

/-- A run of the producer closes its line if a read of it failed, and only then. -/
theorem Halted.line_eq {packets : List Packet} {s' : Session} (hl : s.line = some line)
    (h : Halted s packets course s') :
    s'.line = if failedRead course then none else some line := by
  cases h with
  | @stopped _ earlier pieces _ calm reads_eq line_eq =>
    have hreads : reads (earlier ++ [⟨.stopRequested, true⟩]) = pieces.map .bytes := by
      rw [reads_append, reads_eq]
      exact List.append_nil _
    rw [failedRead_eq_false hreads, line_eq]
    exact hl
  | @failed _ earlier pieces _ line' error hl' calm reads_eq all closed =>
    have hreads : reads (earlier ++ parting line' s.identifier error) =
        pieces.map .bytes ++ [.failed error] := by
      rw [reads_append, reads_eq]
      exact List.append_nil _
    rw [failedRead_eq_true hreads, closed]
    rfl
  | closed hl' => cases hl'.symm.trans hl

/-- What a producer that has come to its end has done to its line and its queue: it has offered
frames, and if a read failed, closed the line and stopped the queue. -/
theorem did_produce {s' : Session} (hl : s.line = some line)
    (h : Follows (produce budget timeout s) course (.ok s')) :
    s'.line = (if failedRead course then none else some line) ∧
      ∃ frames : List Frame,
        Did course (frames.map .enqueue ++ List.replicate (failedRead course).toNat .stop) []
          (if failedRead course then {line} else 0) := by
  obtain ⟨packets, -, hhalted⟩ :=
    (show ∃ packets, Produced s packets course s' ∧ Halted s packets course s' from
      produce_of_follows h)
  have hline := hhalted.line_eq hl
  refine ⟨hline, ?_⟩
  cases did_loop hl h with
  | stopped line_eq fed =>
    obtain ⟨frames, hdid⟩ := fed
    cases hfailed : failedRead course with
    | false =>
      refine ⟨frames, ?_⟩
      rw [Bool.toNat_false, List.replicate_zero, List.append_nil]
      exact hdid
    | true =>
      rw [hfailed, line_eq] at hline
      cases hline
  | @failed _ frames line_eq did =>
    cases hfailed : failedRead course with
    | false =>
      rw [hfailed, line_eq] at hline
      cases hline
    | true => exact ⟨frames, did⟩

/-- From its start until it was shut down, an acquisition on a line has bounded the queue and
started it, has offered frames, and has stopped the queue in the end. It has asked the board once to
start, and then written what it `tried`; it has closed the lines that are `shut`. -/
def Concluded (line capacity : Nat) (tried : List (Nat × Bytes)) (shut : Multiset Nat)
    (course : List Exchange) : Prop :=
  ∃ (frames : List Frame) (stops : Nat),
    Did course
      (.setMaxCount capacity :: .start ::
        (frames.map .enqueue ++ List.replicate (stops + 1) .stop))
      ((line, Command.startAcquisition.request) :: tried) shut

theorem concluded {frames : List Frame} {stops : Nat}
    (hstarting : Did starting [.setMaxCount capacity, .start]
      [(line, Command.startAcquisition.request)] 0)
    (hproducing : Did producing (frames.map .enqueue ++ List.replicate stops .stop) [] shut)
    (hfinishing : Did finishing [.stop] tried also) :
    Concluded line capacity tried (shut + also) (starting ++ (producing ++ finishing)) := by
  have hall := hstarting.append (hproducing.append hfinishing)
  rw [List.append_assoc, ← List.replicate_succ', zero_add] at hall
  exact ⟨frames, stops, hall⟩

/-- The queue of an acquisition that has been concluded is released. -/
theorem Concluded.released {consumers : Consumers Frame} {shared : Shared}
    (h : Concluded line capacity tried shut course)
    (ha : Along (.ofConsumers consumers) course shared) : Released consumers shared := by
  obtain ⟨frames, stops, hdid⟩ := h
  have hstopped : operations course = .setMaxCount capacity :: .start ::
      (frames.map .enqueue ++ List.replicate stops .stop) ++ [.stop] := by
    rw [hdid.operations_eq, List.replicate_succ', ← List.append_assoc]
    rfl
  exact ha.released hstopped

/-- What is written to stop the board at the end of a course of the producer, if its line is open
still. -/
def farewell (line : Nat) (producing : List Exchange) : List (Nat × Bytes) :=
  if failedRead producing then [] else [(line, Command.stopAcquisition.request)]

theorem request_eq_farewell (hl : s.line = if failedRead producing then none else some line) :
    s.request .stopAcquisition = farewell line producing := by
  rw [Session.request, hl, farewell]
  cases failedRead producing <;> rfl

theorem closed_once (hl : s.line = if failedRead producing then none else some line) :
    (if failedRead producing then {line} else 0) + (s.line.toList : Multiset Nat) = {line} := by
  rw [hl]
  cases failedRead producing <;> rfl

section

variable {s' : Session}
  (hstarting : Did starting [.setMaxCount capacity, .start]
    [(line, Command.startAcquisition.request)] 0)
  (hl : s.line = some line)
  (hproducing : Follows (produce budget timeout s) producing (.ok s'))

include hstarting hl hproducing

/-- An acquisition that has been stopped gives its session back. -/
theorem stop_concludes {given : Option Session}
    (h : Follows (stop budget (some (.ok s'))) finishing (.ok given)) :
    (∃ s'', given = some s'' ∧ s''.line = if failedRead producing then none else some line) ∧
      Concluded line capacity (farewell line producing)
        (if failedRead producing then {line} else 0) (starting ++ (producing ++ finishing)) := by
  obtain ⟨hline, frames, hdid⟩ := did_produce hl hproducing
  rw [stop_eq] at h
  cases did_finish h with
  | finished line_eq did =>
    rw [request_eq_farewell hline] at did
    have hall := concluded hstarting hdid did
    rw [add_zero] at hall
    exact ⟨⟨_, rfl, line_eq.trans hline⟩, hall⟩

/-- A stop that breaks off has closed the line. -/
theorem stop_broken {why : Breakdown}
    (h : Follows (stop budget (some (.ok s'))) finishing (.error why)) :
    why.ShownBy budget (reads finishing) ∧
      closed (starting ++ (producing ++ finishing)) = {line} := by
  obtain ⟨hline, frames, hdid⟩ := did_produce hl hproducing
  rw [stop_eq] at h
  cases did_finish h with
  | broken shown did =>
    refine ⟨shown, ?_⟩
    rw [(hstarting.append (hdid.append did)).closed_eq, zero_add, closed_once hline]

/-- An acquisition that has been let go of has closed its line. -/
theorem drop_concludes (h : Follows (drop budget (some (.ok s'))) finishing (.ok ())) :
    Concluded line capacity (farewell line producing) {line}
      (starting ++ (producing ++ finishing)) := by
  obtain ⟨hline, frames, hdid⟩ := did_produce hl hproducing
  cases did_drop h with
  | closed did =>
    rw [request_eq_farewell hline] at did
    have hall := concluded hstarting hdid did
    rwa [closed_once hline] at hall

theorem drop_broken {why : Breakdown}
    (h : Follows (drop budget (some (.ok s'))) finishing (.error why)) :
    why.ShownBy budget (reads finishing) ∧
      closed (starting ++ (producing ++ finishing)) = {line} := by
  obtain ⟨hline, frames, hdid⟩ := did_produce hl hproducing
  cases did_drop h with
  | broken shown did =>
    refine ⟨shown, ?_⟩
    rw [(hstarting.append (hdid.append did)).closed_eq, zero_add, closed_once hline]

end

/-- When the producer has crashed, its session is gone and its line closed. -/
theorem crash_concludes
    (hstarting : Did starting [.setMaxCount capacity, .start]
      [(line, Command.startAcquisition.request)] 0)
    (hl : s.line = some line)
    (hproducing : Follows (produce budget timeout s) producing (.error .crashed)) :
    (∀ {e}, Follows (stop budget (some (.error .crashed))) finishing e →
      e = .ok none ∧ Concluded line capacity [] {line} (starting ++ (producing ++ finishing))) ∧
    ∀ {e}, Follows (drop budget (some (.error .crashed))) finishing e →
      e = .ok () ∧ Concluded line capacity [] {line} (starting ++ (producing ++ finishing)) := by
  obtain ⟨frames, hdid⟩ : ∃ frames : List Frame, Did producing (frames.map .enqueue) [] {line} := by
    cases did_loop hl hproducing with
    | crashed did => exact ⟨_, did⟩
  have hall (did : Did finishing [.stop] [] 0) :
      Concluded line capacity [] {line} (starting ++ (producing ++ finishing)) := by
    have hunstopped : Did producing (frames.map .enqueue ++ List.replicate 0 .stop) [] {line} := by
      rw [List.replicate_zero, List.append_nil]
      exact hdid
    exact concluded hstarting hunstopped did
  constructor
  · intro e h
    rw [stop_eq] at h
    cases did_finish h with
    | gone did => exact ⟨rfl, hall did⟩
  · intro e h
    cases did_drop h with
    | gone did => exact ⟨rfl, hall did⟩

/-- An acquisition is all or nothing, whatever its line does and whatever others do to the queue
meanwhile.

A start succeeds or fails as its command does. One that fails has done nothing to the queue, which
is as it was unless others have changed it, and has closed the session. If it succeeds, the session
was open; and when the producer has ended and the acquisition has been stopped or let go of, the
queue has been stopped behind the last frame that it was offered, the board has been asked once to
stop if no read of the producer failed, and not at all otherwise, and nothing else was written since
the start. A stop gives the session back, closed if a read failed, and open otherwise; when the
acquisition is let go of, its line is closed.

A stop gives nothing back when the producer crashed in a read; its line is closed then. Start, stop
and drop break off only where a read crashed, or with as many reads as there may be, and with the
line closed. -/
theorem all_or_nothing {σ : Type} (answer : Surroundings σ) (others : Others σ) (world : σ)
    (consumers : Consumers Frame) (budget : Nat) (config : AcquisitionConfig) (s : Session) :
    let around := beside answer others
    let before := (world, Shared.ofConsumers consumers)
    let starting := (start budget config s).course around before
    let started := (start budget config s).run around before
    let commanded :=
      ((s.setMaxFramePayload config.maxFramePayload).startAcquisition budget).run around before
    started.1 = commanded.1.map (fun x => x.1.map fun _ => x.2) ∧
    (∀ error, started.1 = .ok (.error error) →
      Did starting [] (s.request .startAcquisition) s.line.toList ∧
        ((∀ world shared, others.steps world shared = []) → started.2.2.consumers = consumers)) ∧
    (∀ session, started.1 = .ok (.ok session) → ∃ line, s.line = some line ∧
      let producing := (produce budget config.readTimeout session).course around started.2
      let produced := (produce budget config.readTimeout session).run around started.2
      let stopping := (stop budget (some produced.1)).course around produced.2
      let stopped := (stop budget (some produced.1)).run around produced.2
      let dropping := (drop budget (some produced.1)).course around produced.2
      let dropped := (drop budget (some produced.1)).run around produced.2
      (∀ s', produced.1 = .ok s' →
        (∀ given, stopped.1 = .ok given →
          (∃ s'', given = some s'' ∧
            s''.line = if failedRead producing then none else some line) ∧
          Concluded line config.queueCapacity (farewell line producing)
            (if failedRead producing then {line} else 0) (starting ++ (producing ++ stopping)) ∧
          Released consumers stopped.2.2) ∧
        (dropped.1 = .ok () →
          Concluded line config.queueCapacity (farewell line producing) {line}
            (starting ++ (producing ++ dropping)) ∧
          Released consumers dropped.2.2) ∧
        (∀ why, stopped.1 = .error why → why.ShownBy budget (reads stopping) ∧
          closed (starting ++ (producing ++ stopping)) = {line}) ∧
        ∀ why, dropped.1 = .error why → why.ShownBy budget (reads dropping) ∧
          closed (starting ++ (producing ++ dropping)) = {line}) ∧
      (produced.1 = .error .crashed →
        (stopped.1 = .ok none ∧
          Concluded line config.queueCapacity [] {line} (starting ++ (producing ++ stopping)) ∧
          Released consumers stopped.2.2) ∧
        dropped.1 = .ok () ∧
          Concluded line config.queueCapacity [] {line} (starting ++ (producing ++ dropping)) ∧
          Released consumers dropped.2.2) ∧
      ∀ why, produced.1 = .error why → BrokenOff budget budget producing why) ∧
    ∀ why, started.1 = .error why →
      why.ShownBy budget (reads starting) ∧ closed starting = s.line.toList := by
  intro around before starting started commanded
  have hs : Follows (start budget config s) starting started.1 := follows_course around _ before
  have ha : Along (.ofConsumers consumers) starting started.2.2 :=
    along_course answer others (start budget config s) world _
  refine ⟨run_start around before budget config s, fun error he => ?_, fun session he => ?_,
    fun why he => ?_⟩
  · rw [he] at hs
    cases did_start hs with
    | failed _ did =>
      exact ⟨did, fun alone => consumers_of_alone alone did.operations_eq⟩
  · rw [he] at hs
    cases did_start hs with
    | @started line _ hl line_eq did =>
      refine ⟨line, hl, ?_⟩
      intro producing produced stopping stopped dropping dropped
      have hp : Follows (produce budget config.readTimeout session) producing produced.1 :=
        follows_course around _ started.2
      have hend : Along (.ofConsumers consumers) (starting ++ producing) produced.2.2 :=
        ha.append (along_course answer others _ _ _)
      have hstop : Follows (stop budget (some produced.1)) stopping stopped.1 :=
        follows_course around _ produced.2
      have hstopped : Along (.ofConsumers consumers) (starting ++ (producing ++ stopping))
          stopped.2.2 := by
        rw [← List.append_assoc]
        exact hend.append (along_course answer others _ _ _)
      have hdrop : Follows (drop budget (some produced.1)) dropping dropped.1 :=
        follows_course around _ produced.2
      have hdropped : Along (.ofConsumers consumers) (starting ++ (producing ++ dropping))
          dropped.2.2 := by
        rw [← List.append_assoc]
        exact hend.append (along_course answer others _ _ _)
      -- the producer's ending decides whether there is a session left to stop the board with
      refine ⟨fun s' hok => ?_, fun hcrashed => ?_, fun why hwhy => ?_⟩
      · rw [hok] at hp hstop hdrop
        refine ⟨fun given hgiven => ?_, fun hlet => ?_, fun why hwhy => ?_, fun why hwhy => ?_⟩
        · rw [hgiven] at hstop
          obtain ⟨hsession, hall⟩ := stop_concludes did line_eq hp hstop
          exact ⟨hsession, hall, hall.released hstopped⟩
        · rw [hlet] at hdrop
          have hall := drop_concludes did line_eq hp hdrop
          exact ⟨hall, hall.released hdropped⟩
        · rw [hwhy] at hstop
          exact stop_broken did line_eq hp hstop
        · rw [hwhy] at hdrop
          exact drop_broken did line_eq hp hdrop
      · rw [hcrashed] at hp hstop hdrop
        obtain ⟨hgiven, hstops⟩ := (crash_concludes did line_eq hp).1 hstop
        obtain ⟨hlet, hdrops⟩ := (crash_concludes did line_eq hp).2 hdrop
        exact ⟨⟨hgiven, hstops, hstops.released hstopped⟩, hlet, hdrops,
          hdrops.released hdropped⟩
      · rw [hwhy] at hp
        exact produce_of_follows hp
  · rw [he] at hs
    cases did_start hs with
    | broken shown did => exact ⟨shown, did.closed_eq⟩

/-- A bench on which the producer is asked to stop when it has received some frames. -/
def askedAfter (count : Nat) : Surroundings Bench
  | .stopRequested, bench => (decide (count ≤ bench.counts.framesReceived), bench)
  | action, bench => Bench.answer action bench

/-- A board that refuses to start; and one that starts, streams two frames and confirms the stop. -/
theorem all_or_nothing_two_frames :
    let replied (command : Command) (status : UInt16) : Bytes :=
      (⟨command.byte, status, []⟩ : Reply).packet
    let config : AcquisitionConfig := ⟨1, 5, Packet.maxFramePayload⟩
    let consumers : Consumers Frame := .ofQueue (.ofMaxCount 0) 0
    let around := beside (askedAfter 2) nobody
    let refusing := Bench.playing [replied .startAcquisition 1]
    let streaming := Bench.playing [replied .startAcquisition 0, (⟨0, 0, [7]⟩ : Frame).packet,
      (⟨1, 0, [8]⟩ : Frame).packet, replied .stopAcquisition 0]
    (let before := (refusing, Shared.ofConsumers consumers)
      let starting := (start 20 config Session.onBench).course around before
      let started := (start 20 config Session.onBench).run around before
      (∃ error, started.1 = .ok (.error error)) ∧
        Did starting [] [(0, Command.startAcquisition.request)] {0} ∧
        started.2.2.consumers = consumers) ∧
    let before := (streaming, Shared.ofConsumers consumers)
    let starting := (start 20 config Session.onBench).course around before
    let started := (start 20 config Session.onBench).run around before
    let producing := (produce 20 config.readTimeout Session.onBench).course around started.2
    let produced := (produce 20 config.readTimeout Session.onBench).run around started.2
    let stopping := (stop 20 (some produced.1)).course around produced.2
    let stopped := (stop 20 (some produced.1)).run around produced.2
    started.1 = .ok (.ok Session.onBench) ∧
      (∃ s', stopped.1 = .ok (some s') ∧ s'.line = some 0) ∧
      Concluded 0 config.queueCapacity [(0, Command.stopAcquisition.request)] 0
        (starting ++ (producing ++ stopping)) ∧
      Released consumers stopped.2.2 := by
  intro replied config consumers around refusing streaming
  constructor
  · intro before starting started
    obtain ⟨error, hrefused⟩ : ∃ error, started.1 = .ok (.error error) := by
      have hgiven : started.1.map (·.isOk) = .ok false := by decide +kernel
      generalize started.1 = e at hgiven ⊢
      match e with
      | .ok (.error error) => exact ⟨error, rfl⟩
    obtain ⟨hdid, hqueue⟩ :=
      (all_or_nothing (askedAfter 2) nobody refusing consumers 20 config Session.onBench).2.1 error
        hrefused
    exact ⟨⟨error, hrefused⟩, hdid, hqueue fun _ _ => rfl⟩
  · intro before starting started producing produced stopping stopped
    let session := { Session.onBench with lastSequence := some 1 }
    have hstarted : started.1 = .ok (.ok Session.onBench) := by decide +kernel
    have hproduced : produced.1 = .ok session := by decide +kernel
    have hstopped : stopped.1 = .ok (some session) := by decide +kernel
    have hread : failedRead producing = false := by decide +kernel
    obtain ⟨line, hl, hends, -⟩ :=
      (all_or_nothing (askedAfter 2) nobody streaming consumers 20 config Session.onBench).2.2.1 _
        hstarted
    obtain rfl : 0 = line := Option.some.inj hl
    dsimp only [stopped, stopping, produced, producing, started, starting, before, around]
      at hends hproduced hstopped hread ⊢
    obtain ⟨-, hall, hreleased⟩ := (hends session hproduced).1 (some session) hstopped
    rw [farewell, hread] at hall
    exact ⟨hstarted, ⟨session, hstopped, rfl⟩, hall, hreleased⟩

/-- A producer that crashes takes its session with it: nothing is left to give back, although no
read of the line has failed. -/
theorem no_session_after_crash :
    let reply : Bytes := (⟨Command.startAcquisition.byte, 0, []⟩ : Reply).packet
    let frame : Frame := ⟨0, 0, [7]⟩
    let config : AcquisitionConfig := ⟨1, 5, Packet.maxFramePayload⟩
    let bench : Bench := { Bench.playing [] with
      lines := #[⟨"p0", true, .script [.data reply, .data frame.packet, .crash]⟩] }
    let around := beside Bench.answer nobody
    let started := (start 20 config Session.onBench).run around
      (bench, .ofConsumers (.ofQueue (.ofMaxCount 0) 0))
    let produced := (produce 20 5 Session.onBench).run around started.2
    started.1 = .ok (.ok Session.onBench) ∧ produced.1 = .error .crashed ∧
      ((stop 20 (some produced.1)).run around produced.2).1 = .ok none := by
  decide +kernel

end Acquisition

end RadarHost
