import RadarHost.Proofs.Acquisition.Failing
import RadarHost.Proofs.Bench.Commands
import RadarHost.Proofs.Link.Timing

/-!
# What an acquisition does to its line and its queue

Of a course of questions it matters to others which operations it has carried out on the queue, what
it has tried to write and which lines it has closed (`Did`). What a course has done is what its
parts have done (`Did.append`), and most questions do nothing of the kind (`Did.of_idle`).

A command writes its request once, if its session is open (`Session.did_sendCommand`). A start that
fails closes the session and leaves the queue alone (`Acquisition.did_start`); a producer offers
frames and, if its line fails, closes it and stops the queue (`Acquisition.did_loop`).
-/

namespace RadarHost

open Dialogue

/-! ## Doings -/

namespace Action

/-- What an action tries to write, and on which line. -/
def attempt? : Action → Option (Nat × Bytes)
  | .write line bytes => some (line, bytes)
  | _ => none

/-- What neither operates on the queue nor opens a line, writes to it or closes it. -/
def Idle : Action → Prop
  | .read .. | .now | .report _ | .tally _ | .requestStop | .stopRequested | .stats => True
  | _ => False

theorem Produces.idle_or_offer {action : Action} (h : action.Produces) :
    action.Idle ∨ ∃ frame, action = .offer frame := by
  cases action with
  | offer frame => exact .inr ⟨frame, rfl⟩
  | now | report | tally | stopRequested => exact .inl trivial
  | _ => exact h.elim

theorem Hears.idle {action : Action} (h : action.Hears) : action.Idle := by
  cases action <;> first | exact h.elim | trivial

end Action

namespace Dialogue

/-- The operations that a course carries out on the queue, in order. -/
def operations (course : List Exchange) : List (FrameQueue.Operation Frame) :=
  course.filterMap (·.1.operation?)

/-- What a course tries to write, in order, with the lines. -/
def attempts (course : List Exchange) : List (Nat × Bytes) := course.filterMap (·.1.attempt?)

/-- What a course has done: the operations that it has carried out on the queue, what it has tried
to write, and the lines that it has closed. It has opened none. -/
structure Did (course : List Exchange) (done : List (FrameQueue.Operation Frame))
    (tried : List (Nat × Bytes)) (shut : Multiset Nat) : Prop where
  operations_eq : operations course = done
  attempts_eq : attempts course = tried
  closed_eq : closed course = shut
  opened_eq : opened course = 0

variable {course later : List Exchange} {done others : List (FrameQueue.Operation Frame)}
  {tried more : List (Nat × Bytes)} {shut also : Multiset Nat}

theorem Did.append (h : Did course done tried shut) (h' : Did later others more also) :
    Did (course ++ later) (done ++ others) (tried ++ more) (shut + also) where
  operations_eq := by
    rw [← h.operations_eq, ← h'.operations_eq]
    exact List.filterMap_append
  attempts_eq := by
    rw [← h.attempts_eq, ← h'.attempts_eq]
    exact List.filterMap_append
  closed_eq := by rw [closed_append, h.closed_eq, h'.closed_eq]
  opened_eq := by rw [opened_append, h.opened_eq, h'.opened_eq, add_zero]

theorem Did.of_idle (h : ∀ x ∈ course, x.1.Idle) : Did course [] [] 0 := by
  induction course with
  | nil => exact ⟨rfl, rfl, rfl, rfl⟩
  | cons x course ih =>
    obtain ⟨hx, hcourse⟩ := List.forall_mem_cons.1 h
    obtain ⟨action, answer⟩ := x
    have hfirst : Did [⟨action, answer⟩] [] [] 0 := by
      cases action <;> first | exact hx.elim | exact ⟨rfl, rfl, rfl, rfl⟩
    exact hfirst.append (ih hcourse)

/-- What is done behind a course that does nothing of the kind. -/
theorem Did.after (h : Did later done tried shut) (hc : ∀ x ∈ course, x.1.Idle) :
    Did (course ++ later) done tried shut := by
  have hall := (Did.of_idle hc).append h
  rwa [List.nil_append, List.nil_append, zero_add] at hall

theorem Did.cons {x : Exchange} (hx : x.1.Idle) (h : Did later done tried shut) :
    Did (x :: later) done tried shut := by
  have hidle : ∀ y ∈ [x], y.1.Idle := List.forall_mem_singleton.2 hx
  exact h.after hidle

/-- What has been done before a course that does nothing of the kind. -/
theorem Did.before (h : Did course done tried shut) (hc : ∀ x ∈ later, x.1.Idle) :
    Did (course ++ later) done tried shut := by
  have hall := h.append (Did.of_idle hc)
  rwa [List.append_nil, List.append_nil, add_zero] at hall

end Dialogue

/-- A dialogue comes to an end with a value of which `post` is true, or breaks off as its reads
show. -/
def Dialogue.Comes {α : Type} (post : α → Prop) (budget : Nat) (course : List Exchange) :
    Ending α → Prop
  | .ok value => post value
  | .error why => why.ShownBy budget (reads course)

/-! ## Sessions -/

/-- An exchange tries to write its request once. -/
theorem PacketReader.did_exchange {budget line : Nat} {command : Command} {timeout : Duration}
    {r : PacketReader} {course : List Exchange} {e : Ending (Except LinkError Bytes × PacketReader)}
    (h : Follows (r.exchange budget line command [] timeout) course e) :
    Did course [] [(line, command.request)] 0 ∧
      ∀ why, e = .error why → why.ShownBy budget (reads course) := by
  constructor
  · have hwrite (written : Except TransportError Unit) :
        Did [⟨.write line command.request, written⟩] [] [(line, command.request)] 0 :=
      ⟨rfl, rfl, rfl, rfl⟩
    rcases course_of_exchange (encode_request command) h with
      ⟨error, rfl⟩ | ⟨started, rest, rfl, hloop⟩
    · exact hwrite _
    · rw [← replyTurn_eq] at hloop
      have hrest := hloop.asks (Asks.loop (asks_replyTurn line command started _) budget r)
      exact (hwrite _).before
        (List.forall_mem_cons.2 ⟨trivial, fun x hx => (hrest x hx).idle⟩)
  · rintro why rfl
    rcases follows_exchange (encode_request command) h with
      ⟨error, -, -, he⟩ | ⟨started, later, m, -, -, ha, he⟩
    · cases he
    · cases m with
      | ok x => cases he
      | error why' =>
        cases he
        exact ha.shownBy

namespace Session

variable {s s' : Session} {budget : Nat} {course : List Exchange}

/-- What a session tries to write to send a command. -/
def request (s : Session) (command : Command) : List (Nat × Bytes) :=
  s.line.toList.map (·, command.request)

theorem did_closing (s : Session) : Did s.closing [] [] s.line.toList := by
  unfold closing
  cases s.line <;> exact ⟨rfl, rfl, rfl, rfl⟩

/-- What a command makes of a session: its line stays as it is, and if it is closed, the command
fails. -/
def Commanded {α : Type} (s : Session) (x : Except LinkError α × Session) : Prop :=
  x.2.line = s.line ∧ (s.line = none → ∃ error, x.1 = .error error)

/-- A command tries to write its request once, if its session is open. -/
theorem did_sendCommand {command : Command} {e : Ending (Except LinkError Bytes × Session)}
    (h : Follows (s.sendCommand budget command) course e) :
    Did course [] (s.request command) 0 ∧ Comes s.Commanded budget course e := by
  obtain ⟨line, _, _, _, _, reader, timeout, _⟩ := s
  cases line with
  | none =>
    obtain ⟨rfl, rfl⟩ := Follows.of_done h
    exact ⟨.of_idle (List.forall_mem_nil _), rfl, fun _ => ⟨_, rfl⟩⟩
  | some line =>
    rcases Follows.of_bind (d := reader.exchange budget line command [] timeout) h with
      ⟨why, hx, rfl⟩ | ⟨⟨result, reader⟩, first, later, rfl, hx, hdone⟩
    · exact ⟨(PacketReader.did_exchange hx).1, (PacketReader.did_exchange hx).2 why rfl⟩
    · obtain ⟨rfl, rfl⟩ := Follows.of_done hdone
      rw [List.append_nil]
      exact ⟨(PacketReader.did_exchange hx).1, rfl, nofun⟩

/-- A command whose success is reported, and then noted in the session, does no more than that. -/
theorem did_command {command : Command} {event : Session → Event} (note : Session → Session)
    {next : Except LinkError Bytes × Session → Dialogue (Except LinkError Unit × Session)}
    {e : Ending (Except LinkError Unit × Session)} (hnote : ∀ s, (note s).line = s.line)
    (herror : ∀ error s, next (.error error, s) = .done (.error error, s))
    (hok : ∀ payload s,
      next (.ok payload, s) = .ask (.report (event s)) fun _ => .done (.ok (), note s))
    (h : Follows ((s.sendCommand budget command).bind next) course e) :
    Did course [] (s.request command) 0 ∧ Comes s.Commanded budget course e := by
  rcases Follows.of_bind h with
    ⟨why, hsend, rfl⟩ | ⟨⟨result, s'⟩, first, later, rfl, hsend, hrest⟩
  · exact did_sendCommand hsend
  · obtain ⟨hdid, hline, hclosed⟩ := did_sendCommand hsend
    cases result with
    | error error =>
      rw [herror] at hrest
      obtain ⟨rfl, rfl⟩ := Follows.of_done hrest
      rw [List.append_nil]
      exact ⟨hdid, hline, fun _ => ⟨_, rfl⟩⟩
    | ok payload =>
      rw [hok] at hrest
      obtain ⟨_, rest, rfl, hdone⟩ := Follows.of_ask hrest
      obtain ⟨rfl, rfl⟩ := Follows.of_done hdone
      refine ⟨hdid.before (List.forall_mem_singleton.2 trivial), (hnote _).trans hline,
        fun hl => ?_⟩
      obtain ⟨_, he⟩ := hclosed hl
      cases he

theorem did_startAcquisition {e : Ending (Except LinkError Unit × Session)}
    (h : Follows (s.startAcquisition budget) course e) :
    Did course [] (s.request .startAcquisition) 0 ∧ Comes s.Commanded budget course e :=
  did_command (fun s => { s with lastSequence := none }) (fun _ => rfl) (fun _ _ => rfl)
    (fun _ _ => rfl) h

theorem did_stopAcquisition {e : Ending (Except LinkError Unit × Session)}
    (h : Follows (s.stopAcquisition budget) course e) :
    Did course [] (s.request .stopAcquisition) 0 ∧ Comes s.Commanded budget course e :=
  did_command id (fun _ => rfl) (fun _ _ => rfl) (fun _ _ => rfl) h

/-- The lines that are closed when a dialogue has ended after which the session is given up if it
has broken off. -/
def shutBy {α : Type} (s : Session) : Ending α → Multiset Nat
  | .ok _ => 0
  | .error _ => s.line.toList

@[simp] theorem shutBy_ok {α : Type} (s : Session) (value : α) : s.shutBy (.ok value) = 0 := rfl

/-- What is protected by giving up a session of the same line: if it breaks off, the line is
closed. -/
theorem did_protected {α : Type} {s' : Session} {d : Dialogue α} {post : α → Prop}
    {tried : List (Nat × Bytes)} {e : Ending α}
    (hd : ∀ {course e}, Follows d course e → Did course [] tried 0 ∧ Comes post budget course e)
    (hs : s'.line = s.line) (h : Follows (protect s'.discard d) course e) :
    Did course [] tried (s.shutBy e) ∧ Comes post budget course e := by
  rcases of_protect_discard h with ⟨value, hvalue, rfl⟩ | ⟨why, first, rfl, hbroken, rfl⟩
  · exact hd hvalue
  · obtain ⟨hdid, hshown⟩ := hd hbroken
    have hclosing := hdid.append s'.did_closing
    rw [List.append_nil, List.append_nil, zero_add, hs] at hclosing
    refine ⟨hclosing, ?_⟩
    show why.ShownBy budget (reads (first ++ s'.closing))
    rw [reads_append, s'.reads_closing, List.append_nil]
    exact hshown

end Session

/-! ## Acquisitions -/

namespace Acquisition

variable {s s' : Session} {budget turns line : Nat} {timeout : Duration}
  {config : AcquisitionConfig} {course later : List Exchange}

/-- What a start comes to: it fails, and has closed the session and left the queue alone, or it has
made the session stream and the queue run. -/
inductive StartMakes (s : Session) (budget : Nat) (config : AcquisitionConfig)
    (course : List Exchange) : Ending (Except LinkError Session) → Prop
  | failed (error : LinkError)
    (did : Did course [] (s.request .startAcquisition) s.line.toList) :
    StartMakes s budget config course (.ok (.error error))
  | started {line : Nat} {session : Session} (hl : s.line = some line)
    (line_eq : session.line = some line)
    (did : Did course [.setMaxCount config.queueCapacity, .start]
      [(line, Command.startAcquisition.request)] 0) :
    StartMakes s budget config course (.ok (.ok session))
  | broken {why : Breakdown} (shown : why.ShownBy budget (reads course))
    (did : Did course [] (s.request .startAcquisition) s.line.toList) :
    StartMakes s budget config course (.error why)

theorem did_start {e : Ending (Except LinkError Session)}
    (h : Follows (start budget config s) course e) : StartMakes s budget config course e := by
  let limited := s.setMaxFramePayload config.maxFramePayload
  have hstart {course : List Exchange} {e : Ending (Except LinkError Unit × Session)}
      (h : Follows (protect limited.discard (limited.startAcquisition budget)) course e) :=
    Session.did_protected (s := limited) (fun h => Session.did_startAcquisition h) rfl h
  rcases Follows.of_bind (d := protect limited.discard (limited.startAcquisition budget)) h with
    ⟨why, hbroken, rfl⟩ | ⟨⟨result, s'⟩, first, later, rfl, hfirst, hrest⟩
  · exact .broken (hstart hbroken).2 (hstart hbroken).1
  · obtain ⟨hdid, hline, hclosed⟩ := hstart hfirst
    cases result with
    | error error =>
      rcases Follows.of_bind (d := s'.discard) hrest with
        ⟨_, hd, _⟩ | ⟨_, closing, _, rfl, hd, hdone⟩
      · cases (Session.follows_discard hd).2
      · obtain ⟨rfl, -⟩ := Session.follows_discard hd
        obtain ⟨rfl, rfl⟩ := Follows.of_done hdone
        have hall := hdid.append s'.did_closing
        rw [List.append_nil, List.append_nil, Session.shutBy_ok, zero_add, hline] at hall
        rw [List.append_nil]
        exact .failed error hall
    | ok _ =>
      obtain ⟨_, rest, rfl, hqueue⟩ := Follows.of_ask hrest
      obtain ⟨_, rest, rfl, hdone⟩ := Follows.of_ask hqueue
      obtain ⟨rfl, rfl⟩ := Follows.of_done hdone
      cases hl : s.line with
      | none =>
        obtain ⟨_, he⟩ := hclosed hl
        cases he
      | some line =>
        have hopen : Did [⟨.resizeQueue config.queueCapacity, ()⟩, ⟨.startQueue, ()⟩]
            [.setMaxCount config.queueCapacity, .start] [] 0 := ⟨rfl, rfl, rfl, rfl⟩
        have hall := hdid.append hopen
        have hrequest : limited.request .startAcquisition =
            [(line, Command.startAcquisition.request)] := by
          show s.line.toList.map _ = _
          rw [hl]
          rfl
        rw [hrequest, Session.shutBy_ok, zero_add] at hall
        exact .started hl (hline.trans hl) hall

/-! ### Producers -/

/-- What a producer has done while it went on: it has offered frames. -/
def Fed (course : List Exchange) : Prop :=
  ∃ frames : List Frame, Did course (frames.map .enqueue) [] 0

theorem fed_of_offers (h : ∀ x ∈ course, x.1.Idle ∨ ∃ frame, x.1 = .offer frame) : Fed course := by
  induction course with
  | nil => exact ⟨[], .of_idle (List.forall_mem_nil _)⟩
  | cons x course ih =>
    obtain ⟨hx, hcourse⟩ := List.forall_mem_cons.1 h
    obtain ⟨frames, hdid⟩ := ih hcourse
    rcases hx with hidle | ⟨frame, hoffer⟩
    · exact ⟨frames, hdid.cons hidle⟩
    · obtain ⟨_, took⟩ := x
      subst hoffer
      have hfirst : Did [⟨.offer frame, took⟩] [.enqueue frame] [] 0 := ⟨rfl, rfl, rfl, rfl⟩
      have hall := hfirst.append hdid
      rw [add_zero] at hall
      exact ⟨frame :: frames, hall⟩

theorem fed_of_idle (h : ∀ x ∈ course, x.1.Idle) : Fed course :=
  fed_of_offers fun x hx => .inl (h x hx)

theorem Fed.append (h : Fed course) (h' : Fed later) : Fed (course ++ later) := by
  obtain ⟨frames, did⟩ := h
  obtain ⟨more, did'⟩ := h'
  have hall := did.append did'
  rw [← List.map_append, add_zero] at hall
  exact ⟨_, hall⟩

/-- What a producer has done on a line when it has ended. -/
inductive ProducerMakes (line : Nat) : List Exchange → Ending Session → Prop
  /-- It has been asked to stop. -/
  | stopped {course : List Exchange} {s' : Session} (line_eq : s'.line = some line)
    (fed : Fed course) : ProducerMakes line course (.ok s')
  /-- Its line has failed. -/
  | failed {course : List Exchange} {s' : Session} {frames : List Frame} (line_eq : s'.line = none)
    (did : Did course (frames.map .enqueue ++ [.stop]) [] {line}) :
    ProducerMakes line course (.ok s')
  | crashed {course : List Exchange} {frames : List Frame}
    (did : Did course (frames.map .enqueue) [] {line}) :
    ProducerMakes line course (.error .crashed)
  | exhausted {course : List Exchange} : ProducerMakes line course (.error .exhausted)

theorem ProducerMakes.after {e : Ending Session} (h : ProducerMakes line later e)
    (hf : Fed course) : ProducerMakes line (course ++ later) e := by
  have ⟨_, hbefore⟩ := hf
  cases h with
  | stopped line_eq fed => exact .stopped line_eq (hf.append fed)
  | failed line_eq did =>
    have hall := hbefore.append did
    rw [← List.append_assoc, ← List.map_append, zero_add] at hall
    exact .failed line_eq hall
  | crashed did =>
    have hall := hbefore.append did
    rw [← List.map_append, zero_add] at hall
    exact .crashed hall
  | exhausted => exact .exhausted

/-- What a producer has done when one of its turns has ended. -/
def TurnDid (line : Nat) (course : List Exchange) : Ending (Session ⊕ Session) → Prop
  | .ok (.inl s') => s'.line = some line ∧ Fed course
  | .ok (.inr s') => ProducerMakes line course (.ok s')
  | .error why => ProducerMakes line course (.error why)

theorem TurnDid.after {e : Ending (Session ⊕ Session)} (h : TurnDid line later e)
    (hf : Fed course) : TurnDid line (course ++ later) e := by
  match e with
  | .ok (.inl s') => exact ⟨h.1, hf.append h.2⟩
  | .ok (.inr s') => exact ProducerMakes.after h hf
  | .error why => exact ProducerMakes.after h hf

theorem did_settle (hl : s'.line = some line) {result : Except LinkError (Option Frame)}
    {e : Ending (Session ⊕ Session)} (h : Follows (settle (result, s')) course e) :
    TurnDid line course e := by
  cases herror : Session.lineError? result with
  | none =>
    obtain ⟨rfl, -⟩ := handsOver_of_settle herror h
    exact ⟨hl, fed_of_offers fun x hx =>
      (h.asks (asks_settle s' herror) x hx).idle_or_offer⟩
  | some error =>
    obtain rfl := Session.eq_of_lineError? herror
    obtain ⟨_, rest, rfl, hclose⟩ := Follows.of_ask h
    rcases Follows.of_bind (d := s'.close) hclose with
      ⟨_, hc, _⟩ | ⟨_, closing, rest, rfl, hclosed, hstop⟩
    · cases (Session.follows_close hc).2
    obtain ⟨rfl, he⟩ := Session.follows_close hclosed
    cases he
    obtain ⟨_, rest, rfl, hdone⟩ := Follows.of_ask hstop
    obtain ⟨rfl, rfl⟩ := Follows.of_done hdone
    have hqueue : Did [⟨.stopQueue, ()⟩] [.stop] [] 0 := ⟨rfl, rfl, rfl, rfl⟩
    have hclosing := s'.did_closing
    rw [hl] at hclosing
    have hall := hclosing.append hqueue
    rw [add_zero] at hall
    have hreported : Did (⟨.report (.transportFailed s'.identifier error), ()⟩ ::
        (s'.closing ++ [⟨.stopQueue, ()⟩])) (([] : List Frame).map .enqueue ++ [.stop]) [] {line} :=
      hall.cons trivial
    exact ProducerMakes.failed rfl hreported

theorem did_turn (hl : s.line = some line) {e : Ending (Session ⊕ Session)}
    (h : Follows (turn budget timeout s) course e) : TurnDid line course e := by
  rw [turn_eq] at h
  obtain ⟨asked, rest, rfl, hrest⟩ := Follows.of_ask h
  have hlook : Fed [⟨.stopRequested, asked⟩] := fed_of_idle (List.forall_mem_singleton.2 trivial)
  cases asked with
  | true =>
    obtain ⟨rfl, rfl⟩ := Follows.of_done hrest
    exact .stopped hl hlook
  | false =>
    have hhears {heard : List Exchange}
        {e : Ending (Except LinkError (Option Frame) × Session)}
        (h : Follows (s.readFrame budget timeout) heard e) : ∀ x ∈ heard, x.1.Idle :=
      fun x hx => (h.asks (s.asks_readFrame budget timeout) x hx).idle
    have hturn : TurnDid line rest e := by
      rcases Follows.of_bind (d := protect s.discard (s.readFrame budget timeout)) hrest with
        ⟨why, hread, rfl⟩ | ⟨⟨result, s'⟩, heard, rest, rfl, hread, hsettle⟩
      · rcases Session.of_protect_discard hread with ⟨_, _, he⟩ | ⟨_, heard, rfl, hcall, he⟩
        · cases he
        · cases he
          cases why with
          | exhausted => exact .exhausted
          | crashed =>
            have hclosing : Did (heard ++ s.closing) (([] : List Frame).map .enqueue) []
                s.line.toList := s.did_closing.after (hhears hcall)
            rw [hl] at hclosing
            exact .crashed hclosing
      · rcases Session.of_protect_discard hread with ⟨_, hcall, he⟩ | ⟨_, _, _, _, he⟩
        · cases he
          obtain ⟨packets, hcalled⟩ := Session.tookCall_of_follows hl hcall
          exact (did_settle (hcalled.line_eq.trans hl) hsettle).after (fed_of_idle (hhears hcall))
        · cases he
    have hall := hturn.after hlook
    exact hall

theorem did_loop (hl : s.line = some line) {e : Ending Session}
    (h : Follows (loop (turn budget timeout) turns s) course e) : ProducerMakes line course e := by
  induction turns generalizing s course with
  | zero =>
    cases h
    exact .exhausted
  | succ turns ih =>
    rcases Follows.of_bind (d := turn budget timeout s) h with
      ⟨why, hturn, rfl⟩ | ⟨x, first, later, rfl, hturn, hrest⟩
    · exact did_turn hl hturn
    · have hdid := did_turn hl hturn
      cases x with
      | inl s' => exact (ih hdid.1 hrest).after hdid.2
      | inr s' =>
        obtain ⟨rfl, rfl⟩ := Follows.of_done hrest
        rw [List.append_nil]
        exact hdid

end Acquisition

end RadarHost
