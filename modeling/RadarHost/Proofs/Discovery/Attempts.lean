import RadarHost.Proofs.Bench.Reply
import RadarHost.Proofs.Discovery.Custody
import RadarHost.Proofs.Link.Hearing

/-!
# What an attempt hears

An attempt makes one call for a line, and what is heard on the line until it is closed decides what
comes of it, whatever surroundings answer: `Attempted` says what, and `follows_attempt` that it is
so. `calls` finds the calls in the course of a search, each with what was heard up to the next one.
-/

namespace RadarHost

namespace Dialogue

variable {α : Type}

/-! ## Calls in a course -/

/-- A call for a line, and what was heard from then on. -/
structure Call where
  identifier : String
  baudRate : UInt32
  /-- The line, if there is one. -/
  opened : Except TransportError Nat
  /-- What came of the writes. -/
  writes : List (Except TransportError Unit)
  reads : List ReadAnswer
  /-- What the clock said. -/
  times : List Instant
  deriving DecidableEq, Repr

/-- Whether an exchange is a call for a line. -/
def Exchange.isCall : Exchange → Bool
  | ⟨.openLine .., _⟩ => true
  | _ => false

/-- The exchanges up to the next call for a line. -/
def untilCall (course : List Exchange) : List Exchange := course.takeWhile (!·.isCall)

/-- The calls for lines in a course, in order, each with what was heard up to the next one. -/
def calls : List Exchange → List Call
  | [] => []
  | ⟨.openLine identifier baudRate, opened⟩ :: rest =>
    ⟨identifier, baudRate, opened, writes (untilCall rest), reads (untilCall rest),
      times (untilCall rest)⟩ :: calls rest
  | _ :: rest => calls rest

/-- Nothing is heard in a course before its first call for a line. -/
structure Muted (course : List Exchange) : Prop where
  writes_eq : writes (untilCall course) = []
  reads_eq : reads (untilCall course) = []
  times_eq : times (untilCall course) = []

theorem calls_cons_of_not_isCall {x : Exchange} (h : x.isCall = false) (rest : List Exchange) :
    calls (x :: rest) = calls rest := by
  obtain ⟨action, answer⟩ := x
  cases action with
  | openLine identifier baudRate => cases h
  | _ => rfl

theorem untilCall_of_no_call {course : List Exchange} (h : ∀ x ∈ course, x.isCall = false) :
    untilCall course = course :=
  List.takeWhile_eq_self_iff.2 fun x hx => by rw [h x hx]; rfl

theorem calls_of_no_call {course : List Exchange} (h : ∀ x ∈ course, x.isCall = false) :
    calls course = [] := by
  induction course with
  | nil => rfl
  | cons x rest ih =>
    obtain ⟨hx, hrest⟩ := List.forall_mem_cons.1 h
    rw [calls_cons_of_not_isCall hx, ih hrest]

theorem no_call_of_calls {course : List Exchange} (h : calls course = []) :
    ∀ x ∈ course, x.isCall = false := by
  induction course with
  | nil => exact List.forall_mem_nil _
  | cons x rest ih =>
    have hx : x.isCall = false := by
      obtain ⟨action, answer⟩ := x
      cases action with
      | openLine identifier baudRate => cases h
      | _ => rfl
    rw [calls_cons_of_not_isCall hx] at h
    exact List.forall_mem_cons.2 ⟨hx, ih h⟩

theorem untilCall_append (first later : List Exchange) :
    untilCall (first ++ later) = untilCall first ∨
      untilCall (first ++ later) = untilCall first ++ untilCall later := by
  unfold untilCall
  rw [List.takeWhile_append]
  split
  · rename_i hl
    rw [(List.takeWhile_prefix _).eq_of_length hl]
    exact .inr rfl
  · exact .inl rfl

/-- What is not heard before the next call adds nothing. -/
theorem Muted.untilCall_append {later : List Exchange} (h : Muted later) (first : List Exchange) :
    writes (untilCall (first ++ later)) = writes (untilCall first) ∧
      reads (untilCall (first ++ later)) = reads (untilCall first) ∧
      times (untilCall (first ++ later)) = times (untilCall first) := by
  rcases Dialogue.untilCall_append first later with he | he
  · rw [he]
    exact ⟨rfl, rfl, rfl⟩
  · rw [he, writes_append, reads_append, times_append, h.writes_eq, h.reads_eq, h.times_eq]
    exact ⟨List.append_nil _, List.append_nil _, List.append_nil _⟩

theorem Muted.append {first later : List Exchange} (hf : Muted first) (hl : Muted later) :
    Muted (first ++ later) := by
  obtain ⟨hw, hr, ht⟩ := hl.untilCall_append first
  exact ⟨hw.trans hf.writes_eq, hr.trans hf.reads_eq, ht.trans hf.times_eq⟩

theorem muted_report (event : Event) : Muted [⟨.report event, ()⟩] := ⟨rfl, rfl, rfl⟩

/-- The calls of one course after another. -/
theorem calls_append {later : List Exchange} (h : Muted later) (first : List Exchange) :
    calls (first ++ later) = calls first ++ calls later := by
  induction first with
  | nil => rfl
  | cons x rest ih =>
    obtain ⟨action, answer⟩ := x
    obtain ⟨hw, hr, ht⟩ := h.untilCall_append rest
    cases action with
    | openLine identifier baudRate =>
      rw [List.cons_append, calls, calls, ih, hw, hr, ht, List.cons_append]
    | _ => exact ih

/-- A course without calls, after a call. -/
theorem calls_openLine {course : List Exchange} (h : ∀ x ∈ course, x.isCall = false)
    (identifier : String) (baudRate : UInt32) (opened : Except TransportError Nat) :
    calls (⟨.openLine identifier baudRate, opened⟩ :: course) =
      [⟨identifier, baudRate, opened, writes course, reads course, times course⟩] := by
  rw [calls, untilCall_of_no_call h, calls_of_no_call h]

theorem not_isCall_of_isHandless {x : Exchange} (h : x.1.isHandless = true) :
    x.isCall = false := by
  obtain ⟨action, answer⟩ := x
  cases action with
  | openLine identifier baudRate => cases h
  | _ => rfl

theorem Handless.no_call {d : Dialogue α} (hd : d.Handless) {course : List Exchange}
    {e : Ending α} (h : Follows d course e) : ∀ x ∈ course, x.isCall = false :=
  fun x hx => not_isCall_of_isHandless (h.asks (handless_iff_asks.1 hd) x hx)

end Dialogue

open Dialogue

namespace Discovery

/-! ## Attempts -/

/-- What is made of the answer to the probe. -/
def judge (config : DiscoveryConfig) :
    Except LinkError Bytes → Except AttemptError (BoardInfo × BoardDescriptor)
  | .error e => .error (.ofLink e)
  | .ok payload =>
    match BoardInfo.ofBytes payload with
    | .error e => .error (.ofPacket e)
    | .ok info =>
      match config.findBoard info with
      | none => .error (.unknownBoard info.vid info.pid)
      | some descriptor => .ok (info, descriptor)

theorem handshake_eq (budget : Nat) (config : DiscoveryConfig) (line : Nat)
    (reader : PacketReader) :
    handshake budget config line reader =
      (reader.exchange budget line .getBoardInfo [] config.probeTimeout).bind
        fun r => .done (judge config r.1, r.2) := by
  show (reader.exchange budget line .getBoardInfo [] config.probeTimeout).bind _ = _
  congr 1
  funext ⟨result, reader⟩
  cases result with
  | error e => rfl
  | ok payload =>
    unfold judge
    dsimp only
    cases BoardInfo.ofBytes payload with
    | error e => rfl
    | ok info => dsimp only; cases config.findBoard info <;> rfl

/-- The session that an attempt makes of a board that was found. -/
def sessionOf (config : DiscoveryConfig) (identifier : String) (baudRate : UInt32) (line : Nat)
    (reader : PacketReader) (found : BoardInfo × BoardDescriptor) : Session where
  line := some line
  identifier := identifier
  baudRate := baudRate
  info := found.1
  descriptor := found.2
  reader := reader
  commandTimeout := config.probeTimeout
  lastSequence := none

/-- The board that a reply to the probe names. An intact reply with a status is a refusal, and any
other packet that is not the reply it should be says that the link is bad. -/
def identified (config : DiscoveryConfig) (packet : Bytes) :
    Except AttemptError (BoardInfo × BoardDescriptor) :=
  match Reply.parse packet .getBoardInfo with
  | .error (.boardStatus status) => .error (.refused (.boardStatus status))
  | .error e => .error (.integrity e)
  | .ok reply =>
    match BoardInfo.ofBytes reply.payload with
    | .error e => .error (.integrity e)
    | .ok info =>
      match config.findBoard info with
      | none => .error (.unknownBoard info.vid info.pid)
      | some descriptor => .ok (info, descriptor)

theorem judge_replied (config : DiscoveryConfig) (packet : Bytes) :
    judge config (PacketReader.replied .getBoardInfo packet) = identified config packet := by
  unfold identified PacketReader.replied
  cases Reply.parse packet .getBoardInfo with
  | error e => cases e <;> rfl
  | ok reply =>
    unfold judge
    dsimp only
    cases hi : BoardInfo.ofBytes reply.payload with
    | error e =>
      obtain ⟨cause, rfl⟩ := BoardInfo.cursor_of_ofBytes hi
      rfl
    | ok info => rfl

/-- How long a call has taken: from the first time that the clock told to the last one. -/
def waited (call : Call) : Duration := call.times.getLastD 0 - call.times.headD 0

/-- What an attempt makes of what its wait for the reply has found. -/
def concluded (config : DiscoveryConfig) (call : Call) (line : Nat) :
    Waited Bytes × PacketReader → Except AttemptError Session
  | (.taken packet, reader) =>
    (identified config packet).map (sessionOf config call.identifier call.baudRate line reader)
  | (.late, _) => .error (.transport (.timeout (waited call).millis))
  | (.failed error, _) => .error (.transport error)

/-- What comes of an attempt, told by what its call has heard. -/
inductive Attempted (budget : Nat) (config : DiscoveryConfig) (call : Call) :
    Ending (Except AttemptError Session) → Prop
  | notOpened {error : TransportError} (ho : call.opened = .error error) :
    Attempted budget config call (.ok (.error (.transport error)))
  | notWritten {line : Nat} {error : TransportError} (ho : call.opened = .ok line)
    (hw : call.writes = [.error error]) :
    Attempted budget config call (.ok (.error (.transport error)))
  | awaited {line : Nat} {m : Ending (Waited Bytes × PacketReader)} (ho : call.opened = .ok line)
    (hw : call.writes = [.ok ()])
    (ha : Awaits Packet.reply? budget (.empty Packet.maxFramePayload) call.reads m) :
    Attempted budget config call (m.map (concluded config call line))

section

variable {budget line : Nat} {config : DiscoveryConfig} {identifier : String} {baudRate : UInt32}
  {course : List Exchange}

theorem follows_handshake {reader : PacketReader}
    {e : Ending (Except AttemptError (BoardInfo × BoardDescriptor) × PacketReader)}
    (h : Follows (handshake budget config line reader) course e) :
    ∃ m, Follows (reader.exchange budget line .getBoardInfo [] config.probeTimeout) course m ∧
      e = m.map fun r => (judge config r.1, r.2) := by
  rw [handshake_eq] at h
  rcases h.of_bind with ⟨why, hx, rfl⟩ | ⟨r, first, later, rfl, hx, hd⟩
  · exact ⟨_, hx, rfl⟩
  · obtain ⟨rfl, rfl⟩ := Follows.of_done hd
    rw [List.append_nil]
    exact ⟨_, hx, rfl⟩

/-- What the wait for a reply comes to is judged as the attempt concludes. -/
theorem judge_result (config : DiscoveryConfig) (line : Nat) {started : Instant}
    {later : List Instant} {call : Call} (ht : call.times = started :: later)
    (x : Waited Bytes × PacketReader) :
    (judge config ((PacketReader.replyWait .getBoardInfo started).result
        (later.getLastD started) x.1)).map
          (sessionOf config call.identifier call.baudRate line x.2) =
      concluded config call line x := by
  obtain ⟨packet | _ | error, reader⟩ := x
  · exact congrArg (Except.map _) (judge_replied config packet)
  · simp only [concluded, waited, ht, List.getLastD_cons]
    rfl
  · rfl

/-- What an attempt does after the handshake: it reports the board, or closes the line. -/
def parted (config : DiscoveryConfig) (identifier : String) (baudRate : UInt32) (line : Nat) :
    Except AttemptError (BoardInfo × BoardDescriptor) × PacketReader →
      Dialogue (Except AttemptError Session)
  | (.error e, _) => ask (.close line) fun _ => done (.error e)
  | (.ok (info, descriptor), reader) =>
    ask (.report (.boardFound descriptor.name info.firmware identifier baudRate)) fun _ =>
      done (.ok (sessionOf config identifier baudRate line reader (info, descriptor)))

theorem follows_parted {result : Except AttemptError (BoardInfo × BoardDescriptor)}
    {reader : PacketReader} {e : Ending (Except AttemptError Session)}
    (h : Follows (parted config identifier baudRate line (result, reader)) course e) :
    Muted course ∧ calls course = [] ∧
      e = .ok (result.map (sessionOf config identifier baudRate line reader)) := by
  cases result with
  | error cause =>
    obtain ⟨_, rest, rfl, hd⟩ := Follows.of_ask h
    obtain ⟨rfl, rfl⟩ := Follows.of_done hd
    exact ⟨⟨rfl, rfl, rfl⟩, rfl, rfl⟩
  | ok found =>
    obtain ⟨_, rest, rfl, hd⟩ := Follows.of_ask h
    obtain ⟨rfl, rfl⟩ := Follows.of_done hd
    exact ⟨⟨rfl, rfl, rfl⟩, rfl, rfl⟩

/-- On an open line the exchange of the handshake is all that is heard. -/
theorem follows_opened {e : Ending (Except AttemptError Session)}
    (h : Follows ((protect (perform (.close line))
      (handshake budget config line (.empty Packet.maxFramePayload))).bind
        (parted config identifier baudRate line)) course e) :
    ∃ heard closing m, course = heard ++ closing ∧ Muted closing ∧ calls closing = [] ∧
      Follows ((PacketReader.empty Packet.maxFramePayload).exchange budget line .getBoardInfo []
        config.probeTimeout) heard m ∧
      e = m.map fun r =>
        (judge config r.1).map (sessionOf config identifier baudRate line r.2) := by
  rcases h.of_bind with ⟨why, hp, rfl⟩ | ⟨⟨result, reader⟩, first, closing, rfl, hp, hc⟩
  · rcases hp.of_protect_close with ⟨_, _, he⟩ | ⟨_, heard, rfl, hh, he⟩
    · cases he
    · cases he
      obtain ⟨m, hx, he⟩ := follows_handshake hh
      cases m with
      | ok r => cases he
      | error why =>
        cases he
        exact ⟨heard, _, _, rfl, ⟨rfl, rfl, rfl⟩, rfl, hx, rfl⟩
  · rcases hp.of_protect_close with ⟨_, hh, he⟩ | ⟨_, _, _, _, he⟩
    · cases he
      obtain ⟨m, hx, he⟩ := follows_handshake hh
      cases m with
      | error why => cases he
      | ok r =>
        obtain ⟨rfl, rfl⟩ := Prod.mk.inj (Except.ok.inj he)
        obtain ⟨hm, hcalls, rfl⟩ := follows_parted hc
        exact ⟨first, closing, _, rfl, hm, hcalls, hx, rfl⟩
    · cases he

/-- An attempt makes one call for a line, at the rate that it was given, and comes to what it has
heard. -/
theorem follows_attempt {e : Ending (Except AttemptError Session)}
    (h : Follows (attempt budget config identifier baudRate) course e) :
    ∃ call, calls course = [call] ∧ Muted course ∧ call.identifier = identifier ∧
      call.baudRate = baudRate ∧ Attempted budget config call e := by
  obtain ⟨_, rest, rfl, h₁⟩ := Follows.of_ask h
  obtain ⟨opened, rest, rfl, h₂⟩ := Follows.of_ask h₁
  have hmuted : ∀ opened rest, Muted (⟨.report (.probing identifier baudRate), ()⟩ ::
      ⟨.openLine identifier baudRate, opened⟩ :: rest) := fun _ _ => ⟨rfl, rfl, rfl⟩
  cases opened with
  | error error =>
    obtain ⟨rfl, rfl⟩ := Follows.of_done h₂
    exact ⟨_, rfl, hmuted _ _, rfl, rfl, .notOpened rfl⟩
  | ok line =>
    change Follows ((protect (perform (.close line))
      (handshake budget config line (.empty Packet.maxFramePayload))).bind
        (parted config identifier baudRate line)) rest e at h₂
    obtain ⟨heard, closing, m, rfl, hm, hcalls, hx, rfl⟩ := follows_opened h₂
    let call : Call :=
      ⟨identifier, baudRate, .ok line, writes heard, reads heard, times heard⟩
    have hcall : calls (⟨.report (.probing identifier baudRate), ()⟩ ::
        ⟨.openLine identifier baudRate, .ok line⟩ :: (heard ++ closing)) = [call] := by
      have hquiet := (PacketReader.handless_exchange _ _ _ _ _ _).no_call hx
      show calls ((⟨.openLine identifier baudRate, .ok line⟩ :: heard) ++ closing) = _
      rw [calls_append hm, calls_openLine hquiet, hcalls]
      rfl
    refine ⟨call, hcall, hmuted _ _, rfl, rfl, ?_⟩
    rcases PacketReader.follows_exchange rfl hx with
      ⟨error, hw, -, rfl⟩ | ⟨started, later, m, hw, ht, ha, rfl⟩
    · exact .notWritten rfl hw
    · have he : Attempted budget config call (m.map (concluded config call line)) :=
        .awaited rfl hw ha
      cases m with
      | error why => exact he
      | ok x =>
        have hjudge := judge_result config line (show call.times = _ from ht) x
        exact (congrArg (Attempted budget config call ∘ Except.ok) hjudge).mpr he

end

end Discovery

end RadarHost
