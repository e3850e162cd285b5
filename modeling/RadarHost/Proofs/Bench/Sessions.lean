import RadarHost.Bench.Course
import RadarHost.Proofs.Bench.Lockstep
import RadarHost.Proofs.Bench.Reply
import RadarHost.Proofs.Discovery.Rates

/-!
# Sessions that never fall out of step

A session that an attempt has given is in step with its board (`ends_attempt_tracks`), and every
command and every read keeps it so (`Course.take_followed`): a start begins a new row of frames at
the number that the board has reached, and a read gives the next frame of the row or none. So in any
course of them no call fails, and the frames since the last start are those of the board, in order
(`never_out_of_step`).
-/

namespace RadarHost

open Dialogue Packet

namespace BoardLine

variable {board : SimulatedBoard} {first : UInt32} {given waiting : Nat} {held : Bytes}
  {l : BoardLine}

theorem inStep_opened {baudRate : UInt32} (h : baudRate ∈ board.acceptedBaudRates)
    (now : Instant) : (opened board baudRate now).InStep board 0 0 0 [] where
  board_eq := rfl
  linkOk := List.contains_iff_mem.2 h
  input_eq := rfl
  flight := rfl
  short := Nat.zero_le _
  next := nofun
  count _ _ := ⟨Nat.zero_le _, nofun⟩

/-- A start begins with the next frame of the board. -/
theorem InStep.started (h : l.InStep board first given waiting held) (now : Instant) :
    { l.commanded now .startAcquisition with output := [] }.InStep board l.sequence 0 0 [] where
  board_eq := h.board_eq
  linkOk := h.linkOk
  input_eq := h.input_eq
  flight := rfl
  short := Nat.zero_le _
  next _ := (UInt32.add_zero _).symm
  count count hcount :=
    ⟨Nat.zero_le _, fun _ => ⟨count, by rw [← hcount, ← h.board_eq]; rfl, by omega⟩⟩

/-- After a stop no frame is on its way. -/
theorem InStep.stopped (h : l.InStep board first given waiting held) (now : Instant) :
    { l.commanded now .stopAcquisition with output := [] }.InStep board first given 0 [] where
  board_eq := h.board_eq
  linkOk := h.linkOk
  input_eq := h.input_eq
  flight := rfl
  short := Nat.zero_le _
  next := nofun
  count count hcount := ⟨by have := (h.count count hcount).1; omega, nofun⟩

end BoardLine

theorem SimulatedBoard.packets_lt_budget {board : SimulatedBoard}
    (hm : board.framePayloadLen ≤ maxFramePayload) (command : Command) :
    board.packetLen + (board.replyTo command).packet.length < Course.budget := by
  have hmax : maxFramePayload = 0x100000 := rfl
  have hreply : (board.replyTo command).payload.length ≤ 1024 := board.fits_replyTo command
  rw [packetLen, Reply.length_packet, Course.budget, FrameHeader.size, checksumSize,
    Reply.headerSize]
  omega

section

variable {board : SimulatedBoard} {first : UInt32} {given line : Nat} {l : BoardLine}
  {s : Session} {b : Bench}

/-- A session in step with its board: of the frames from number `first` on it has given `given`. -/
structure Session.Tracks (board : SimulatedBoard) (line : Nat) (l : BoardLine) (first : UInt32)
    (given : Nat) (s : Session) (b : Bench) : Prop where
  line_eq : s.line = some line
  fit : board.framePayloadLen ≤ FrameHeader.maxPayload s.reader.limit
  patient : 0 < s.commandTimeout
  there : ∃ t, Bench.BoardAt line l t b
  step : ∃ waiting, l.InStep board first given waiting s.reader.bytes

namespace Session

theorem ends_sendCommand (hc : board.corruptReplies = false)
    (hm : board.framePayloadLen ≤ maxFramePayload) (h : s.Tracks board line l first given b)
    (command : Command) :
    Ends Bench.answer
      (fun x b => x.1 = .ok (board.replyTo command).payload ∧
        ∃ reader t, x.2 = { s with reader } ∧ reader.limit = s.reader.limit ∧ reader.bytes = [] ∧
          Bench.BoardAt line { l.commanded t command with output := [] } t b)
      (s.sendCommand Course.budget command) b := by
  obtain ⟨t, there⟩ := h.there
  obtain ⟨waiting, hstep⟩ := h.step
  unfold sendCommand
  rw [h.line_eq]
  refine (ends_command hc h.fit hstep there command h.patient
    (SimulatedBoard.packets_lt_budget hm command)).bind ?_
  rintro ⟨result, reader⟩ b ⟨hresult, hlimit, hbytes, there⟩
  exact Ends.done ⟨hresult, reader, t, rfl, hlimit, hbytes, there⟩

theorem ends_startAcquisition (hc : board.corruptReplies = false)
    (hm : board.framePayloadLen ≤ maxFramePayload) (h : s.Tracks board line l first given b) :
    Ends Bench.answer
      (fun x b => x.1 = .ok () ∧ ∃ l', x.2.Tracks board line l' l.sequence 0 b)
      (s.startAcquisition Course.budget) b := by
  obtain ⟨waiting, hstep⟩ := h.step
  refine (ends_sendCommand hc hm h .startAcquisition).bind ?_
  rintro ⟨_, _⟩ b ⟨rfl, reader, t, rfl, hlimit, hbytes, there⟩
  refine Ends.ask (Ends.done ⟨rfl, _, h.line_eq, hlimit ▸ h.fit, h.patient,
    ⟨t, there.report _⟩, 0, ?_⟩)
  show BoardLine.InStep _ _ _ _ reader.bytes _
  rw [hbytes]
  exact hstep.started t

theorem ends_stopAcquisition (hc : board.corruptReplies = false)
    (hm : board.framePayloadLen ≤ maxFramePayload) (h : s.Tracks board line l first given b) :
    Ends Bench.answer
      (fun x b => x.1 = .ok () ∧ ∃ l', x.2.Tracks board line l' first given b)
      (s.stopAcquisition Course.budget) b := by
  obtain ⟨waiting, hstep⟩ := h.step
  refine (ends_sendCommand hc hm h .stopAcquisition).bind ?_
  rintro ⟨_, _⟩ b ⟨rfl, reader, t, rfl, hlimit, hbytes, there⟩
  refine Ends.ask (Ends.done ⟨rfl, _, h.line_eq, hlimit ▸ h.fit, h.patient,
    ⟨t, there.report _⟩, 0, ?_⟩)
  show BoardLine.InStep _ _ _ _ reader.bytes _
  rw [hbytes]
  exact hstep.stopped t

/-- A read gives the next frame or none. -/
theorem ends_readFrame_board (hm : board.framePayloadLen ≤ maxFramePayload)
    (h : s.Tracks board line l first given b) (timeout : Duration) :
    Ends Bench.answer
      (fun x b => ∃ l', (x.1 = .ok none ∧ x.2.Tracks board line l' first given b) ∨
        x.1 = .ok (some (board.frame (first + UInt32.ofNat given))) ∧
          x.2.Tracks board line l' first (given + 1) b)
      (s.readFrame Course.budget timeout) b := by
  obtain ⟨t, there⟩ := h.there
  obtain ⟨waiting, hstep⟩ := h.step
  have hb : board.packetLen + 1 < Course.budget :=
    (Nat.add_le_add_left (by rw [Reply.length_packet]; exact Nat.le_add_left _ _) _).trans_lt
      (SimulatedBoard.packets_lt_budget hm .startAcquisition)
  unfold readFrame
  rw [h.line_eq]
  refine (ends_nextFrame_board hm h.fit hstep there timeout hb).bind ?_
  rintro ⟨_, reader⟩ b ⟨l', t', left, there, hlimit, ⟨rfl, hstep⟩ | ⟨rfl, hstep⟩⟩
  · exact Ends.done ⟨l', .inl ⟨rfl, rfl, hlimit ▸ h.fit, h.patient, ⟨t', there⟩, left,
      hstep⟩⟩
  · let f := board.frame (first + UInt32.ofNat given)
    have hpayload : f.header.payload f.packet = .ok f.payload :=
      Frame.payload_packet (SimulatedBoard.fits_frame h.fit _)
    dsimp only
    rw [hpayload]
    refine (Ends.reportAll (P := Bench.BoardAt line l' t') (fun b event h => h.report event) _
      there).bind fun _ b there => ?_
    exact Ends.done ⟨l', .inr ⟨rfl, rfl, hlimit ▸ h.fit, h.patient, ⟨t', there⟩, left,
      hstep⟩⟩

end Session

end

/-! ## Attempts -/

namespace Discovery

variable {b : Bench} {ports : List (String × SimulatedBoard)} {identifier name : String}
  {board : SimulatedBoard} {baudRate : UInt32} {config : DiscoveryConfig}
  {descriptor : BoardDescriptor}

/-- An attempt at a rate that a known board accepts gives a session in step with the board. -/
theorem ends_attempt_tracks (hports : b.ports = .boards ports)
    (hfind : ports.find? (·.1 == identifier) = some (name, board))
    (hrate : baudRate ∈ board.acceptedBaudRates) (hc : board.corruptReplies = false)
    (hknown : config.findBoard board.info = some descriptor) (ht : 0 < config.probeTimeout)
    (hm : board.framePayloadLen ≤ maxFramePayload) :
    Ends Bench.answer
      (fun x b => ∃ s line l, x = .ok s ∧ s.Tracks board line l 0 0 b)
      (attempt Course.budget config identifier baudRate) b := by
  refine Ends.ask (Ends.ask ?_)
  generalize hr : (Bench.answer (.report (.probing identifier baudRate)) b).2 = reported
  have hports' : reported.ports = .boards ports := by rw [← hr]; exact hports
  obtain ⟨hline, hopen, hclock⟩ := Bench.openLine_board hports' hfind baudRate
  rw [show (Bench.answer (.openLine identifier baudRate) reported).1 = .ok _ from hline]
  have hfit : board.framePayloadLen ≤ FrameHeader.maxPayload maxFramePayload := le_min hm hm
  have hhand : Ends Bench.answer
      (fun x b => x.1 = .ok (board.info, descriptor) ∧ x.2.limit = maxFramePayload ∧
        x.2.bytes = [] ∧ ∃ t l, Bench.BoardAt reported.lines.size l t b ∧
          l.InStep board 0 0 0 [])
      (handshake Course.budget config reported.lines.size (.empty maxFramePayload))
      (Bench.answer (.openLine identifier baudRate) reported).2 := by
    rw [handshake_eq]
    refine (ends_command hc hfit (BoardLine.inStep_opened hrate _) ⟨hclock, identifier, hopen⟩
      .getBoardInfo ht (SimulatedBoard.packets_lt_budget hm _)).bind ?_
    rintro ⟨_, reader⟩ b ⟨rfl, hlimit, hbytes, there⟩
    refine Ends.done ⟨?_, hlimit, hbytes, _, _, there, BoardLine.inStep_opened hrate _⟩
    unfold judge
    dsimp only [SimulatedBoard.replyTo]
    rw [BoardInfo.ofBytes_toBytes]
    dsimp only
    rw [hknown]
  refine (hhand.protect _).bind ?_
  rintro ⟨_, reader⟩ b ⟨rfl, hlimit, hbytes, t, l, there, hstep⟩
  refine Ends.ask (Ends.done ⟨_, _, l, rfl, rfl, ?_, ht, ⟨t, there.report _⟩, 0, ?_⟩)
  · show _ ≤ FrameHeader.maxPayload reader.limit
    rw [hlimit]
    exact hfit
  · show BoardLine.InStep _ _ _ _ reader.bytes _
    rw [hbytes]
    exact hstep

end Discovery

/-! ## Courses -/

namespace Course

variable {board : SimulatedBoard} {first : UInt32} {given : Nat} {c : Course}

/-- Takes steps one after the other. -/
def takeAll (c : Course) : List Step → List Result × Course
  | [] => ([], c)
  | step :: steps =>
    let (result, c) := c.take step
    let (results, c) := c.takeAll steps
    (result :: results, c)

theorem takeAll_cons (c : Course) (step : Step) (steps : List Step) :
    c.takeAll (step :: steps) =
      ((c.take step).1 :: ((c.take step).2.takeAll steps).1,
        ((c.take step).2.takeAll steps).2) := rfl

/-- A step of someone who streams frames whose payloads have a given length: a command, a read, or
a limit that leaves room for them. -/
def Step.Streams (payloadLen : Nat) : Step → Prop
  | .start | .stop | .read _ => True
  | .setMaxPayload max => payloadLen ≤ max
  | _ => False

/-- A read gives a frame or none, any other step is done. -/
def Step.Succeeds : Step → Result → Prop
  | .read _, .frame _ => True
  | .read _, _ => False
  | _, .ok => True
  | _, _ => False

/-- The frame that a step has given. -/
def Result.frame? : Result → Option Frame
  | .frame found => found
  | _ => none

/-- Number of the next frame of the board at the end of the session's line. -/
def counter? (c : Course) : Option UInt32 :=
  match c.session.bind (·.line) with
  | none => none
  | some line =>
    match c.bench.openEnd? line with
    | some (_, .board l) => some l.sequence
    | _ => none

/-- Whoever takes the steps holds a session in step with its board. -/
def InStep (board : SimulatedBoard) (first : UInt32) (given : Nat) (c : Course) : Prop :=
  ∃ s line l, c.session = some s ∧ s.Tracks board line l first given c.bench

/-- What comes of a step of someone in step: the row of frames that is given then, and how many of
it have been. -/
inductive Followed (board : SimulatedBoard) (c : Course) (first : UInt32) (given : Nat) :
    Step → Result → UInt32 → Nat → Prop
  | started {counter : UInt32} (h : c.counter? = some counter) :
    Followed board c first given .start .ok counter 0
  | stopped : Followed board c first given .stop .ok first given
  | limited {max : Nat} : Followed board c first given (.setMaxPayload max) .ok first given
  | nothing {timeout : Duration} :
    Followed board c first given (.read timeout) (.frame none) first given
  | frame {timeout : Duration} :
    Followed board c first given (.read timeout)
      (.frame (some (board.frame (first + UInt32.ofNat given)))) first (given + 1)

theorem counter_eq {s : Session} {line : Nat} {l : BoardLine} (hs : c.session = some s)
    (h : s.Tracks board line l first given c.bench) : c.counter? = some l.sequence := by
  obtain ⟨t, -, identifier, ho⟩ := h.there
  rw [counter?, hs]
  dsimp only [Option.bind_some]
  rw [h.line_eq]
  dsimp only
  rw [ho]

theorem withSession_eq {α : Type} {s : Session} {work : Session → Dialogue (α × Session)}
    {post : α × Session → Bench → Prop} (result : α → Result) (hs : c.session = some s)
    (h : Ends Bench.answer post (work s) c.bench) :
    ∃ x b, post x b ∧
      c.withSession work result = (result x.1, { c with bench := b, session := some x.2 }) := by
  obtain ⟨⟨a, s'⟩, b, hrun, hpost⟩ := h
  refine ⟨(a, s'), b, hpost, ?_⟩
  rw [withSession, hs]
  dsimp only
  rw [show c.bench.run (work s) = _ from hrun]

/-- Every step of someone who streams keeps the session in step. -/
theorem take_followed (hc : board.corruptReplies = false)
    (hm : board.framePayloadLen ≤ maxFramePayload) (h : c.InStep board first given) {step : Step}
    (hstep : step.Streams board.framePayloadLen) :
    ∃ first' given', (c.take step).2.InStep board first' given' ∧
      Followed board c first given step (c.take step).1 first' given' := by
  obtain ⟨s, line, l, hs, hin⟩ := h
  cases step with
  | start =>
    obtain ⟨⟨_, s'⟩, b, ⟨rfl, l', hin'⟩, heq⟩ :=
      withSession_eq commandResult hs (s.ends_startAcquisition hc hm hin)
    refine ⟨l.sequence, 0, ?_⟩
    rw [take, heq]
    exact ⟨⟨s', line, l', rfl, hin'⟩, .started (counter_eq hs hin)⟩
  | stop =>
    obtain ⟨⟨_, s'⟩, b, ⟨rfl, l', hin'⟩, heq⟩ :=
      withSession_eq commandResult hs (s.ends_stopAcquisition hc hm hin)
    refine ⟨first, given, ?_⟩
    rw [take, heq]
    exact ⟨⟨s', line, l', rfl, hin'⟩, .stopped⟩
  | read timeout =>
    obtain ⟨⟨_, s'⟩, b, ⟨l', ⟨rfl, hin'⟩ | ⟨rfl, hin'⟩⟩, heq⟩ :=
      withSession_eq frameResult hs (s.ends_readFrame_board hm hin timeout)
    · refine ⟨first, given, ?_⟩
      rw [take, heq]
      exact ⟨⟨s', line, l', rfl, hin'⟩, .nothing⟩
    · refine ⟨first, given + 1, ?_⟩
      rw [take, heq]
      exact ⟨⟨s', line, l', rfl, hin'⟩, .frame⟩
  | setMaxPayload max =>
    refine ⟨first, given, ?_⟩
    rw [take, withSession, hs]
    exact ⟨⟨s.setMaxFramePayload max, line, l, rfl, hin.line_eq,
      le_min (le_min hstep hm) hm, hin.patient, hin.there, hin.step⟩, .limited⟩
  | _ => cases hstep

theorem Followed.succeeds {step : Step} {result : Result} {first' : UInt32} {given' : Nat}
    (h : Followed board c first given step result first' given') : step.Succeeds result := by
  cases h <;> exact trivial

/-- Without a start the row of frames goes on. -/
theorem Followed.frames {step : Step} {result : Result} {first' : UInt32} {given' : Nat}
    (h : Followed board c first given step result first' given') (hs : step ≠ .start) :
    first' = first ∧ ∃ n, given' = given + n ∧
      result.frame?.toList = board.frames (first + UInt32.ofNat given) n := by
  cases h with
  | started => exact absurd rfl hs
  | stopped | limited | nothing => exact ⟨rfl, 0, rfl, rfl⟩
  | frame =>
    refine ⟨rfl, 1, rfl, ?_⟩
    rw [SimulatedBoard.frames_succ]
    rfl

/-- In a course of steps none fails, and the session stays in step. -/
theorem takeAll_inStep (hc : board.corruptReplies = false)
    (hm : board.framePayloadLen ≤ maxFramePayload) (h : c.InStep board first given)
    {steps : List Step} (hsteps : ∀ step ∈ steps, step.Streams board.framePayloadLen) :
    List.Forall₂ Step.Succeeds steps (c.takeAll steps).1 ∧
      ∃ first' given', (c.takeAll steps).2.InStep board first' given' := by
  induction steps generalizing c first given with
  | nil => exact ⟨.nil, first, given, h⟩
  | cons step steps ih =>
    obtain ⟨hstep, hsteps⟩ := List.forall_mem_cons.1 hsteps
    obtain ⟨first', given', h', hfollowed⟩ := take_followed hc hm h hstep
    obtain ⟨hall, hlast⟩ := ih h' hsteps
    exact ⟨.cons hfollowed.succeeds hall, hlast⟩

/-- In a course without a start the frames that are given are the next ones of the row. -/
theorem takeAll_frames (hc : board.corruptReplies = false)
    (hm : board.framePayloadLen ≤ maxFramePayload) (h : c.InStep board first given)
    {steps : List Step} (hsteps : ∀ step ∈ steps, step.Streams board.framePayloadLen)
    (hstart : .start ∉ steps) :
    ∃ n, (c.takeAll steps).2.InStep board first (given + n) ∧
      (c.takeAll steps).1.filterMap Result.frame? =
        board.frames (first + UInt32.ofNat given) n := by
  induction steps generalizing c given with
  | nil => exact ⟨0, h, rfl⟩
  | cons step steps ih =>
    obtain ⟨hstep, hsteps⟩ := List.forall_mem_cons.1 hsteps
    obtain ⟨hne, hstart⟩ := not_or.1 (List.mem_cons.not.1 hstart)
    obtain ⟨first', given', h', hfollowed⟩ := take_followed hc hm h hstep
    obtain ⟨rfl, m, rfl, hframe⟩ := hfollowed.frames (Ne.symm hne)
    obtain ⟨n, hlast, hframes⟩ := ih h' hsteps hstart
    refine ⟨m + n, Nat.add_assoc .. ▸ hlast, ?_⟩
    rw [SimulatedBoard.frames_add, ← hframe, UInt32.add_assoc, ← UInt32.ofNat_add, ← hframes,
      takeAll_cons, List.filterMap_cons]
    cases (c.take step).1.frame? <;> rfl

theorem takeAll_append (c : Course) (before after : List Step) :
    c.takeAll (before ++ after) =
      ((c.takeAll before).1 ++ ((c.takeAll before).2.takeAll after).1,
        ((c.takeAll before).2.takeAll after).2) := by
  induction before generalizing c with
  | nil => rfl
  | cons step before ih =>
    rw [List.cons_append, takeAll_cons, takeAll_cons, ih]
    rfl

/-- The frames since a start are those of the board from the number that it had reached, and no more
than it streams. -/
theorem takeAll_started (hc : board.corruptReplies = false)
    (hm : board.framePayloadLen ≤ maxFramePayload) (h : c.InStep board first given)
    {before after : List Step}
    (hsteps : ∀ step ∈ before ++ .start :: after, step.Streams board.framePayloadLen)
    (hstart : .start ∉ after) :
    ∃ counter n, (c.takeAll before).2.counter? = some counter ∧
      ((c.takeAll (before ++ .start :: after)).1.drop (before.length + 1)).filterMap
          Result.frame? = board.frames counter n ∧
      ∀ count, board.frameCount = some count → n ≤ count := by
  obtain ⟨hbefore, hafter⟩ := List.forall_mem_append.1 hsteps
  obtain ⟨hthis, hafter⟩ := List.forall_mem_cons.1 hafter
  obtain ⟨hall, first', given', h'⟩ := takeAll_inStep hc hm h hbefore
  obtain ⟨counter, begun, h'', hfollowed⟩ := take_followed hc hm h' hthis
  generalize hresult : ((c.takeAll before).2.take .start).1 = result at hfollowed
  cases hfollowed with
  | started hcounter =>
    obtain ⟨n, hlast, hframes⟩ := takeAll_frames hc hm h'' hafter hstart
    refine ⟨counter, n, hcounter, ?_, fun count hcount => ?_⟩
    · rw [takeAll_append, takeAll_cons, hall.length_eq, List.drop_append, Nat.add_sub_cancel_left,
        List.drop_eq_nil_of_le (Nat.le_succ _), List.nil_append, List.drop_one, List.tail_cons,
        hframes]
      exact congrArg (board.frames · n) (UInt32.add_zero counter)
    · obtain ⟨s, line, l, -, hin⟩ := hlast
      obtain ⟨waiting, hstep⟩ := hin.step
      have := (hstep.count count hcount).1
      omega

end Course

/-- Host and simulated board never fall out of step. An attempt at a rate that a known board accepts
gives a session, and whoever takes steps with it, in any order and with any timeouts, has all of
them succeed; since each start, until the next, they are given the frames that the board makes from
the number that it had reached, in order and none twice or left out, and no more than it streams. -/
theorem never_out_of_step {b : Bench} {ports : List (String × SimulatedBoard)}
    {identifier name : String} {board : SimulatedBoard} {baudRate : UInt32}
    {config : DiscoveryConfig} {descriptor : BoardDescriptor} (hports : b.ports = .boards ports)
    (hfind : ports.find? (·.1 == identifier) = some (name, board))
    (hrate : baudRate ∈ board.acceptedBaudRates) (hc : board.corruptReplies = false)
    (hknown : config.findBoard board.info = some descriptor) (ht : 0 < config.probeTimeout)
    (hm : board.framePayloadLen ≤ maxFramePayload) :
    ∃ session b', b.run (Discovery.attempt Course.budget config identifier baudRate) =
        (.ok (.ok session), b') ∧
      ∀ steps : List Course.Step, (∀ step ∈ steps, step.Streams board.framePayloadLen) →
        let course : Course := ⟨b', some session, none⟩
        let results := (course.takeAll steps).1
        List.Forall₂ Course.Step.Succeeds steps results ∧
          ∀ before after, steps = before ++ .start :: after → .start ∉ after →
            ∃ counter n, (course.takeAll before).2.counter? = some counter ∧
              (results.drop (before.length + 1)).filterMap Course.Result.frame? =
                (List.range n).map (fun i => board.frame (counter + UInt32.ofNat i)) ∧
              ∀ count, board.frameCount = some count → n ≤ count := by
  obtain ⟨_, b', hrun, session, line, l, rfl, hin⟩ :=
    Discovery.ends_attempt_tracks hports hfind hrate hc hknown ht hm
  have hcourse : Course.InStep board 0 0 ⟨b', some session, none⟩ := ⟨session, line, l, rfl, hin⟩
  refine ⟨session, b', hrun, fun steps hsteps => ⟨?_, ?_⟩⟩
  · exact (Course.takeAll_inStep hc hm hcourse hsteps).1
  · rintro before after rfl hstart
    exact Course.takeAll_started hc hm hcourse hsteps hstart

/-- Two frames are streamed after each start; the second start comes while one is on its way. -/
theorem never_out_of_step_restarted :
    let board : SimulatedBoard :=
      { SimulatedBoard.default with frameCount := some 2, framePayloadLen := 3 }
    let steps : List Course.Step := [.start, .read 5, .setMaxPayload 3, .start, .read 0, .stop]
    ∃ session b', (Bench.ofPorts (.boards [("sim0", board)])).run
          (Discovery.attempt Course.budget .default "sim0" 921600) = (.ok (.ok session), b') ∧
      List.Forall₂ Course.Step.Succeeds steps ((Course.mk b' (some session) none).takeAll steps).1 ∧
      ∃ counter n,
        (((Course.mk b' (some session) none).takeAll steps).1.drop 4).filterMap
            Course.Result.frame? =
          (List.range n).map (fun i => board.frame (counter + UInt32.ofNat i)) ∧ n ≤ 2 := by
  intro board steps
  have hfind : [("sim0", board)].find? (·.1 == "sim0") = some ("sim0", board) := rfl
  have hknown : DiscoveryConfig.default.findBoard board.info =
      some ⟨0x058B, 0x0251, "Radar Baseboard MCU7"⟩ := rfl
  obtain ⟨session, b', hrun, hcourse⟩ := never_out_of_step
    (b := Bench.ofPorts (.boards [("sim0", board)])) rfl hfind (by decide : (921600 : UInt32) ∈ _)
    rfl hknown (by decide) (by decide)
  have hsteps : ∀ step ∈ steps, step.Streams board.framePayloadLen := by
    simp [steps, Course.Step.Streams, board]
  obtain ⟨hall, hframes⟩ := hcourse steps hsteps
  obtain ⟨counter, n, -, hrow, hcount⟩ :=
    hframes [.start, .read 5, .setMaxPayload 3] [.read 0, .stop] rfl (by simp)
  exact ⟨session, b', hrun, hall, counter, n, hrow, hcount 2 rfl⟩

end RadarHost
