import RadarHost.Proofs.Bench.Delivery
import RadarHost.Proofs.Bench.Lines
import RadarHost.Proofs.Bench.Reply
import RadarHost.Proofs.Discovery.Attempts
import RadarHost.Proofs.Discovery.Custody

/-!
# Rates that work and rates that do not

What becomes of an attempt on a simulated board hangs on the first reply packet in what is heard of
the board's reply (`ends_attempt`). At a rate that the board does not accept, or if it spoils its
replies, there is none with an identity in it, so that no session comes of the attempt and no board
is called unknown (`no_session_on_bad_link`). At a rate that it accepts a known board is found. But
a garbled reply may hold a packet that reads as a refusal (`FeignsRefusal`), after which no other
rate is tried: `probe_finds_iff` says that a known board is found at the first rate that it accepts
if and only if that is the primary rate or its identity does not read so; there is one that does
(`fallback_not_tried`).
-/

namespace RadarHost

open Dialogue Packet

namespace Bench

variable {b : Bench} {ports : List (String × SimulatedBoard)} {identifier name : String}
  {board : SimulatedBoard}

/-- A line to a board has just been opened. -/
theorem openLine_board (hports : b.ports = .boards ports)
    (hfind : ports.find? (·.1 == identifier) = some (name, board)) (baudRate : UInt32) :
    (b.openLine identifier baudRate).1 = .ok b.lines.size ∧
      (b.openLine identifier baudRate).2.openEnd? b.lines.size =
        some (identifier, .board (BoardLine.opened board baudRate b.clock)) ∧
      (b.openLine identifier baudRate).2.clock = b.clock := by
  have hfar : b.farEnd identifier baudRate =
      .ok (.board (BoardLine.opened board baudRate b.clock)) := by
    unfold farEnd
    rw [hports]
    dsimp only
    rw [hfind]
  unfold openLine
  rw [hfar]
  refine ⟨rfl, openEnd?_eq_some_iff.2 ?_, rfl⟩
  exact Array.getElem?_push_size

/-- After the probe, what is heard of a board waits in its line. -/
theorem atBoard_probe {line : Nat} {baudRate : UInt32}
    (h : b.openEnd? line = some (identifier, .board (BoardLine.opened board baudRate b.clock))) :
    (b.write line probePacket).1 = .ok () ∧
      AtBoard line 1 (board.heard baudRate) b.clock (b.write line probePacket).2 := by
  unfold write
  rw [h]
  dsimp only
  rw [write_probe]
  refine ⟨rfl, rfl, ⟨identifier, _, openEnd?_setFarEnd h _, rfl, rfl⟩, ?_⟩
  rw [SimulatedBoard.length_heard]
  decide

end Bench

namespace Discovery

/-! ## Attempts -/

/-- A result of the probe on a line on which some bytes are heard: the first reply packet in them is
judged, or none came in time. -/
def Judged (config : DiscoveryConfig) (heard : Bytes)
    (result : Except AttemptError (BoardInfo × BoardDescriptor)) : Prop :=
  (∃ packet, firstReply heard = some packet ∧
      result = judge config (PacketReader.replied .getBoardInfo packet)) ∨
    (0 < config.probeTimeout → firstReply heard = none) ∧
      ∃ waitedMs, result = .error (.transport (.timeout waitedMs))

section

variable {b : Bench} {ports : List (String × SimulatedBoard)} {identifier name : String}
  {board : SimulatedBoard} {baudRate : UInt32} {budget line : Nat} {config : DiscoveryConfig}

theorem ends_handshake
    (h : b.openEnd? line = some (identifier, .board (BoardLine.opened board baudRate b.clock)))
    (hb : 3 ≤ budget) :
    Ends Bench.answer (fun r _ => Judged config (board.heard baudRate) r.1)
      (handshake budget config line (.empty maxFramePayload)) b := by
  obtain ⟨hw, there⟩ := Bench.atBoard_probe h
  rw [handshake_eq]
  refine (PacketReader.ends_exchange (Bench.delivers_board line) encode_probe hw there hb).bind ?_
  rintro _ b (⟨there, reads, same, next⟩ | ⟨there, reads, facing, none⟩)
  · rename_i rest t packet reader
    exact Ends.done (.inl ⟨packet, congrArg Prod.fst next, rfl⟩)
  · refine Ends.done (.inr ⟨fun ht => ?_, _, rfl⟩)
    obtain rfl := Nat.le_zero.1 (reads (Instant.lt_deadlineAfter ht _))
    obtain ⟨rfl, -⟩ := (Bench.delivers_board line).readLast 0 there
    exact facing.none_of_nil none

theorem ends_attempt (config : DiscoveryConfig) (baudRate : UInt32)
    (hports : b.ports = .boards ports)
    (hfind : ports.find? (·.1 == identifier) = some (name, board)) (hb : 3 ≤ budget) :
    Ends Bench.answer
      (fun r _ => ∃ result line reader, Judged config (board.heard baudRate) result ∧
        r = result.map (sessionOf config identifier baudRate line reader))
      (attempt budget config identifier baudRate) b := by
  refine Ends.ask (Ends.ask ?_)
  generalize hr : (Bench.answer (.report (.probing identifier baudRate)) b).2 = reported
  have hports' : reported.ports = .boards ports := by rw [← hr]; exact hports
  obtain ⟨hline, hopen, hclock⟩ := Bench.openLine_board hports' hfind baudRate
  rw [← hclock] at hopen
  rw [show (Bench.answer (.openLine identifier baudRate) reported).1 = .ok _ from hline]
  refine ((ends_handshake hopen hb).protect _).bind ?_
  rintro ⟨result, reader⟩ b hjudged
  cases result with
  | error e => exact Ends.ask (Ends.done ⟨_, 0, reader, hjudged, rfl⟩)
  | ok found => exact Ends.ask (Ends.done ⟨_, _, reader, hjudged, rfl⟩)

/-! ## Links that do not work -/

theorem ofPacket_ne_unknownBoard (e : PacketError) (vid pid : UInt16) :
    AttemptError.ofPacket e ≠ .unknownBoard vid pid := by
  unfold AttemptError.ofPacket
  split <;> exact nofun

/-- Another rate is not tried only after a status. -/
theorem isRetryable_ofPacket (e : PacketError) :
    (AttemptError.ofPacket e).isRetryable = false ↔ ∃ status, e = .boardStatus status := by
  cases e with
  | boardStatus status => exact ⟨fun _ => ⟨status, rfl⟩, fun _ => rfl⟩
  | _ => exact ⟨nofun, nofun⟩

/-- A reply without an identity fails an attempt, with the status that is in it if there is one. -/
theorem judge_of_no_identity (config : DiscoveryConfig) {packet : Bytes}
    (h : ∀ r, Reply.parse packet .getBoardInfo = .ok r → r.payload.length < BoardInfo.size) :
    ∃ e, judge config (PacketReader.replied .getBoardInfo packet) =
        .error (AttemptError.ofPacket e) ∧
      ∀ status, e = .boardStatus status ↔
        Reply.parse packet .getBoardInfo = .error (.boardStatus status) := by
  unfold PacketReader.replied
  cases hp : Reply.parse packet .getBoardInfo with
  | error e => exact ⟨e, rfl, fun status => ⟨congrArg _, Except.error.inj⟩⟩
  | ok r =>
    unfold judge
    dsimp only
    cases ho : BoardInfo.ofBytes r.payload with
    | error e =>
      obtain ⟨cause, rfl⟩ := BoardInfo.cursor_of_ofBytes ho
      exact ⟨_, rfl, fun status => ⟨nofun, nofun⟩⟩
    | ok info => exact absurd (BoardInfo.length_of_ofBytes ho) (Nat.ne_of_lt (h r hp))

theorem judged_on_bad_link {result : Except AttemptError (BoardInfo × BoardDescriptor)}
    (h : baudRate ∉ board.acceptedBaudRates ∨ board.corruptReplies = true)
    (hj : Judged config (board.heard baudRate) result) :
    ∃ cause, result = .error cause ∧ ∀ vid pid, cause ≠ .unknownBoard vid pid := by
  rcases hj with ⟨packet, hfirst, rfl⟩ | ⟨-, waitedMs, rfl⟩
  · obtain ⟨e, he, -⟩ := judge_of_no_identity config fun r hr =>
      SimulatedBoard.length_payload_lt h hfirst hr
    exact ⟨_, he, ofPacket_ne_unknownBoard e⟩
  · exact ⟨_, rfl, nofun⟩

/-- At a rate that a board does not accept, or of a board that spoils its replies, an attempt comes
to its end with neither a session nor an unknown board, and the lines that are open are those that
were. -/
theorem no_session_on_bad_link (hports : b.ports = .boards ports)
    (hfind : ports.find? (·.1 == identifier) = some (name, board))
    (hbad : baudRate ∉ board.acceptedBaudRates ∨ board.corruptReplies = true)
    (config : DiscoveryConfig) (hb : 3 ≤ budget) :
    ∃ cause b', (attempt budget config identifier baudRate).run Bench.answer b =
        (.ok (.error cause), b') ∧
      (∀ vid pid, cause ≠ .unknownBoard vid pid) ∧
      b'.openLines = b.openLines ∧ b'.live = b.live := by
  obtain ⟨r, b', hrun, result, line, reader, hj, rfl⟩ :=
    ends_attempt config baudRate hports hfind hb
  obtain ⟨cause, rfl, hcause⟩ := judged_on_bad_link hbad hj
  obtain ⟨after, howns, hopen⟩ := (Bench.keeps_openLines b.openLines).run
    (custody_attempt budget config identifier baudRate) (add_zero _).symm
  rw [hrun] at howns hopen
  cases howns
  rw [add_zero] at hopen
  refine ⟨cause, b', hrun, hcause, hopen, ?_⟩
  rw [← Bench.card_openLines, hopen, Bench.card_openLines]

/-- A board that only accepts the fallback rate, and whose identity holds the bytes of a refusal,
with their bits reversed. -/
def feigningBoard : SimulatedBoard :=
  { SimulatedBoard.default with
    acceptedBaudRates := [1000000]
    info := ⟨0x0040, 0x0080, 0, ⟨39, 207, 0⟩⟩ }

theorem no_session_on_bad_link_feigning :
    (921600 : UInt32) ∉ feigningBoard.acceptedBaudRates ∧
      ∃ cause b', (attempt 3 .default "sim0" 921600).run Bench.answer
          (Bench.ofPorts (.boards [("sim0", feigningBoard)])) = (.ok (.error cause), b') ∧
        (∀ vid pid, cause ≠ .unknownBoard vid pid) ∧ b'.openLines = 0 ∧ b'.live = 0 := by
  have hbad : (921600 : UInt32) ∉ feigningBoard.acceptedBaudRates := by decide
  have hfind : [("sim0", feigningBoard)].find? (·.1 == "sim0") = some ("sim0", feigningBoard) := rfl
  exact ⟨hbad, no_session_on_bad_link rfl hfind (.inl hbad) .default (Nat.le_refl 3)⟩

/-! ## Known boards -/

/-- An identity whose garbled reply reads as an intact reply with a status: as a refusal. -/
def FeignsRefusal (info : BoardInfo) : Prop :=
  ∃ packet status, firstReply (info.reply.map (BoardLine.garble false)) = some packet ∧
    Reply.parse packet .getBoardInfo = .error (.boardStatus status)

/-- The start byte of a reply is heard garbled where the byte `0x40` is sent: a reply without it
feigns nothing. -/
theorem not_feignsRefusal_of_notMem {info : BoardInfo} (h : 0x40 ∉ info.reply) :
    ¬ FeignsRefusal info := by
  rintro ⟨packet, status, hfirst, -⟩
  obtain ⟨b, hb, hgarbled⟩ := List.mem_map.1 (replyStart_mem_of_firstReply hfirst)
  have hsent : BoardLine.garble false replyStart = 0x40 := by decide
  rw [← hgarbled, SimulatedBoard.garble_garble] at hsent
  exact h (hsent ▸ hb)

variable {descriptor : BoardDescriptor}
  {result : Except AttemptError (BoardInfo × BoardDescriptor)}

theorem judged_on_good_link (h : baudRate ∈ board.acceptedBaudRates)
    (hc : board.corruptReplies = false) (hknown : config.findBoard board.info = some descriptor)
    (ht : 0 < config.probeTimeout) (hj : Judged config (board.heard baudRate) result) :
    result = .ok (board.info, descriptor) := by
  rw [SimulatedBoard.heard_of_accepted h hc] at hj
  rcases hj with ⟨packet, hfirst, rfl⟩ | ⟨hnone, -⟩
  · cases (firstReply_reply board.info).symm.trans hfirst
    unfold PacketReader.replied judge
    rw [parse_reply]
    dsimp only
    rw [BoardInfo.ofBytes_toBytes]
    dsimp only
    rw [hknown]
  · cases (firstReply_reply board.info).symm.trans (hnone ht)

/-- A garbled reply fails an attempt. It ends the search only where it reads as a refusal. -/
theorem judged_on_garbled_link (h : baudRate ∉ board.acceptedBaudRates)
    (hc : board.corruptReplies = false) (ht : 0 < config.probeTimeout)
    (hj : Judged config (board.heard baudRate) result) :
    ∃ cause, result = .error cause ∧ (cause.isRetryable = false ↔ FeignsRefusal board.info) ∧
      (cause.isRetryable = false → ∃ status, cause = .refused (.boardStatus status)) := by
  have hheard : board.heard baudRate = board.info.reply.map (BoardLine.garble false) :=
    SimulatedBoard.heard_of_not_accepted h hc
  rcases hj with ⟨packet, hfirst, rfl⟩ | ⟨hnone, waitedMs, rfl⟩
  · obtain ⟨e, he, hstatus⟩ := judge_of_no_identity config fun r hr =>
      SimulatedBoard.length_payload_lt (.inl h) hfirst hr
    rw [hheard] at hfirst
    refine ⟨_, he, ?_, ?_⟩
    · rw [isRetryable_ofPacket]
      constructor
      · rintro ⟨status, hs⟩
        exact ⟨packet, status, hfirst, (hstatus status).1 hs⟩
      · rintro ⟨packet', status, hfirst', hp⟩
        cases hfirst.symm.trans hfirst'
        exact ⟨status, (hstatus status).2 hp⟩
    · intro hr
      obtain ⟨status, rfl⟩ := (isRetryable_ofPacket e).1 hr
      exact ⟨status, rfl⟩
  · refine ⟨_, rfl, ⟨nofun, ?_⟩, nofun⟩
    rintro ⟨packet, status, hfirst, -⟩
    cases (hheard ▸ hnone ht).symm.trans hfirst

/-- A session at a rate with the board at the port. -/
structure FoundAt (identifier : String) (board : SimulatedBoard) (baudRate : UInt32)
    (session : Session) : Prop where
  identifier_eq : session.identifier = identifier
  baudRate_eq : session.baudRate = baudRate
  info_eq : session.info = board.info
  isOpen : session.isOpen = true

/-- What comes of a probe of a known board that does not spoil its replies. -/
inductive Probed (config : DiscoveryConfig) (identifier : String) (board : SimulatedBoard) :
    Except NotFound Session → Prop
  /-- It is found at the primary rate. -/
  | primary {session : Session} (hp : config.primaryBaudRate ∈ board.acceptedBaudRates)
    (hs : FoundAt identifier board config.primaryBaudRate session) :
    Probed config identifier board (.ok session)
  /-- Its garbled reply is taken for a refusal. -/
  | refused {status : UInt16} (hp : config.primaryBaudRate ∉ board.acceptedBaudRates)
    (hr : FeignsRefusal board.info) :
    Probed config identifier board
      (.error ⟨[⟨identifier, config.primaryBaudRate, .refused (.boardStatus status)⟩]⟩)
  /-- It is found at the fallback rate. -/
  | fallback {session : Session} (hp : config.primaryBaudRate ∉ board.acceptedBaudRates)
    (hr : ¬ FeignsRefusal board.info) (hf : config.fallbackBaudRate ∈ board.acceptedBaudRates)
    (hs : FoundAt identifier board config.fallbackBaudRate session) :
    Probed config identifier board (.ok session)
  /-- It is found at neither. -/
  | neither {cause cause' : AttemptError} (hp : config.primaryBaudRate ∉ board.acceptedBaudRates)
    (hr : ¬ FeignsRefusal board.info) (hf : config.fallbackBaudRate ∉ board.acceptedBaudRates) :
    Probed config identifier board
      (.error ⟨[⟨identifier, config.primaryBaudRate, cause⟩,
        ⟨identifier, config.fallbackBaudRate, cause'⟩]⟩)

/-- One attempt at a known board that does not spoil its replies. -/
theorem ends_attempt_known (baudRate : UInt32) (hports : b.ports = .boards ports)
    (hfind : ports.find? (·.1 == identifier) = some (name, board))
    (hc : board.corruptReplies = false) (hknown : config.findBoard board.info = some descriptor)
    (ht : 0 < config.probeTimeout) (hb : 3 ≤ budget) :
    Ends Bench.answer
      (fun r b' => b'.ports = .boards ports ∧
        ((baudRate ∈ board.acceptedBaudRates ∧
            ∃ session, r = .ok session ∧ FoundAt identifier board baudRate session) ∨
          baudRate ∉ board.acceptedBaudRates ∧ ∃ cause, r = .error cause ∧
            (cause.isRetryable = false ↔ FeignsRefusal board.info) ∧
            (cause.isRetryable = false → ∃ status, cause = .refused (.boardStatus status))))
      (attempt budget config identifier baudRate) b := by
  obtain ⟨r, b', hrun, result, line, reader, hj, rfl⟩ :=
    ends_attempt config baudRate hports hfind hb
  have hports' := Bench.ports_run (attempt budget config identifier baudRate) b
  rw [hrun] at hports'
  refine ⟨_, b', hrun, hports'.trans hports, ?_⟩
  by_cases ha : baudRate ∈ board.acceptedBaudRates
  · obtain rfl := judged_on_good_link ha hc hknown ht hj
    exact .inl ⟨ha, _, rfl, rfl, rfl, rfl, rfl⟩
  · obtain ⟨cause, rfl, hr, hs⟩ := judged_on_garbled_link ha hc ht hj
    exact .inr ⟨ha, cause, rfl, hr, hs⟩

theorem ends_probe (hports : b.ports = .boards ports)
    (hfind : ports.find? (·.1 == identifier) = some (name, board))
    (hc : board.corruptReplies = false) (hknown : config.findBoard board.info = some descriptor)
    (ht : 0 < config.probeTimeout) (hb : 3 ≤ budget) :
    Ends Bench.answer (fun r _ => Probed config identifier board r)
      (probe budget config identifier) b := by
  refine (ends_attempt_known config.primaryBaudRate hports hfind hc hknown ht hb).bind ?_
  rintro _ b₁ ⟨hports₁, ⟨hp, session, rfl, hs⟩ | ⟨hp, cause, rfl, hr, hstatus⟩⟩
  · exact Ends.done (.primary hp hs)
  · refine Ends.ask ?_
    show Ends _ _ (if cause.isRetryable = true then _ else _) _
    split
    · rename_i hretry
      have hnot : ¬ FeignsRefusal board.info := fun h => by
        rw [hr.2 h] at hretry
        cases hretry
      have hports₂ : (Bench.answer
          (.report (.attemptFailed identifier config.primaryBaudRate cause)) b₁).2.ports =
            .boards ports := hports₁
      refine (ends_attempt_known config.fallbackBaudRate hports₂ hfind hc hknown ht hb).bind ?_
      rintro _ b₂ ⟨-, ⟨hf, session, rfl, hs⟩ | ⟨hf, cause', rfl, -, -⟩⟩
      · exact Ends.done (.fallback hp hnot hf hs)
      · refine Ends.ask ?_
        show Ends _ _ (if cause'.isRetryable = true then _ else _) _
        split
        · exact Ends.done (.neither hp hnot hf)
        · exact Ends.done (.neither hp hnot hf)
    · rename_i hretry
      obtain ⟨status, rfl⟩ := hstatus (Bool.eq_false_iff.2 hretry)
      exact Ends.done (.refused hp (hr.1 (Bool.eq_false_iff.2 hretry)))

/-- Found at the first rate that the board accepts, or at none after an attempt at each. -/
def FoundAtFirstRate (config : DiscoveryConfig) (identifier : String) (board : SimulatedBoard)
    (r : Except NotFound Session) : Prop :=
  if config.primaryBaudRate ∈ board.acceptedBaudRates then
    ∃ session, r = .ok session ∧ FoundAt identifier board config.primaryBaudRate session
  else if config.fallbackBaudRate ∈ board.acceptedBaudRates then
    ∃ session, r = .ok session ∧ FoundAt identifier board config.fallbackBaudRate session
  else
    ∃ e, r = .error e ∧ e.attempts.map (fun a => (a.identifier, a.baudRate)) =
      [(identifier, config.primaryBaudRate), (identifier, config.fallbackBaudRate)]

/-- A probe of a known board that does not spoil its replies comes to its end. It finds the board at
the first rate that the board accepts, or fails after an attempt at each rate, if and only if the
board accepts the primary rate or its identity does not read as a refusal when garbled. -/
theorem probe_finds_iff (hports : b.ports = .boards ports)
    (hfind : ports.find? (·.1 == identifier) = some (name, board))
    (hc : board.corruptReplies = false) (hknown : config.findBoard board.info = some descriptor)
    (ht : 0 < config.probeTimeout) (hb : 3 ≤ budget) :
    ∃ r b', (probe budget config identifier).run Bench.answer b = (.ok r, b') ∧
      (FoundAtFirstRate config identifier board r ↔
        config.primaryBaudRate ∈ board.acceptedBaudRates ∨ ¬ FeignsRefusal board.info) := by
  obtain ⟨r, b', hrun, hprobed⟩ := ends_probe hports hfind hc hknown ht hb
  refine ⟨r, b', hrun, ?_⟩
  unfold FoundAtFirstRate
  cases hprobed with
  | primary hp hs =>
    rw [if_pos hp]
    exact ⟨fun _ => .inl hp, fun _ => ⟨_, rfl, hs⟩⟩
  | fallback hp hr hf hs =>
    rw [if_neg hp, if_pos hf]
    exact ⟨fun _ => .inr hr, fun _ => ⟨_, rfl, hs⟩⟩
  | neither hp hr hf =>
    rw [if_neg hp, if_neg hf]
    exact ⟨fun _ => .inr hr, fun _ => ⟨_, rfl, rfl⟩⟩
  | refused hp hr =>
    rw [if_neg hp]
    refine ⟨fun h => ?_, fun h => absurd hr (h.resolve_left hp)⟩
    -- one attempt is neither a session nor two attempts
    split at h
    · obtain ⟨_, h, -⟩ := h
      cases h
    · obtain ⟨_, h, hattempts⟩ := h
      cases h
      cases hattempts

/-- The known board of the default identity, which only accepts the fallback rate. -/
theorem probe_finds_iff_fallback :
    let board : SimulatedBoard := { SimulatedBoard.default with acceptedBaudRates := [1000000] }
    ¬ FeignsRefusal board.info ∧
      ∃ r b', (probe 3 .default "sim0").run Bench.answer
          (Bench.ofPorts (.boards [("sim0", board)])) = (.ok r, b') ∧
        FoundAtFirstRate .default "sim0" board r := by
  intro board
  have hnot : ¬ FeignsRefusal board.info := not_feignsRefusal_of_notMem (by decide +kernel)
  have hfind : [("sim0", board)].find? (·.1 == "sim0") = some ("sim0", board) := rfl
  have hknown : DiscoveryConfig.default.findBoard board.info =
      some ⟨0x058B, 0x0251, "Radar Baseboard MCU7"⟩ := rfl
  obtain ⟨r, b', hrun, hiff⟩ := probe_finds_iff (b := Bench.ofPorts (.boards [("sim0", board)]))
    rfl hfind rfl hknown (by decide) (Nat.le_refl 3)
  exact ⟨hnot, r, b', hrun, hiff.2 (.inr hnot)⟩

end

/-! ## A board that feigns a refusal -/

theorem feignsRefusal_feigningBoard : FeignsRefusal feigningBoard.info := by
  have hheard : feigningBoard.info.reply.map (BoardLine.garble false) =
      [64, 0, 0, 0, 80, 0] ++ [2, 0, 1, 0, 0, 0, 228, 243, 0, 0, 248, 43] := by decide +kernel
  refine ⟨[2, 0, 1, 0, 0, 0, 228, 243], 1, ?_, by decide +kernel⟩
  rw [hheard]
  -- six bytes of noise, and then the refusal
  iterate 6 refine (firstReply_cons_of_noise (by decide)).trans ?_
  have hv : verdict maxFramePayload [2, 0, 1, 0, 0, 0, 228, 243, 0, 0, 248, 43] =
      .take (.reply [2, 0, 1, 0, 0, 0, 228, 243]) 8 := by decide +kernel
  exact firstReply_of_verdict hv

/-- Its reply at the primary rate ends the search, and the rate that it accepts is not tried. -/
theorem fallback_not_tried :
    let config : DiscoveryConfig :=
      { DiscoveryConfig.default with
        knownBoards := [⟨0x0040, 0x0080, "Board"⟩]
        probeTimeout := Duration.ofMillis 20 }
    let bench := Bench.ofPorts (.boards [("sim0", feigningBoard)])
    config.fallbackBaudRate ∈ feigningBoard.acceptedBaudRates ∧
      ∃ status b', (probe 3 config "sim0").run Bench.answer bench =
          (.ok (.error ⟨[⟨"sim0", 921600, .refused (.boardStatus status)⟩]⟩), b') ∧
        ¬ FoundAtFirstRate config "sim0" feigningBoard
            (.error ⟨[⟨"sim0", 921600, .refused (.boardStatus status)⟩]⟩) := by
  intro config bench
  have hp : config.primaryBaudRate ∉ feigningBoard.acceptedBaudRates := by decide
  have hf : config.fallbackBaudRate ∈ feigningBoard.acceptedBaudRates := by decide
  have hfind : [("sim0", feigningBoard)].find? (·.1 == "sim0") = some ("sim0", feigningBoard) := rfl
  have hknown : config.findBoard feigningBoard.info = some ⟨0x0040, 0x0080, "Board"⟩ := rfl
  obtain ⟨r, b', hrun, hprobed⟩ := ends_probe (b := bench) rfl hfind rfl hknown (by decide)
    (Nat.le_refl 3)
  cases hprobed with
  | primary h => exact absurd h hp
  | fallback _ h => exact absurd feignsRefusal_feigningBoard h
  | neither _ h => exact absurd feignsRefusal_feigningBoard h
  | refused =>
    refine ⟨hf, _, b', hrun, ?_⟩
    unfold FoundAtFirstRate
    rw [if_neg hp, if_pos hf]
    exact nofun

end Discovery

end RadarHost
