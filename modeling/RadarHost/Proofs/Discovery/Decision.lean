import RadarHost.Proofs.Discovery.Attempts
import RadarHost.Proofs.Link.Timing
import RadarHost.Proofs.Packet.Intact

/-!
# What decides an attempt

An attempt is decided by the first reply packet that comes before the deadline of the probe, and by
nothing else that comes. What the packet settles (`settles_identified`) is that the board refuses
the probe, or which board it is, or no more than that the link is bad. `attempt_decided` says of
every attempt, whatever its surroundings answer, that it comes to just this (`Decided`), and to an
error of the line if there is no such reply. An intact reply without a status names a board just if
its payload is ten bytes long (`exists_names_iff`), so that a bad link can be told by the length
(`Decided.integrity_iff_length`).
-/

namespace RadarHost

open Dialogue Packet

namespace Discovery

/-! ## Answers to the probe -/

/-- A packet is intact, and what it says answers the probe. -/
structure Answers (packet : Bytes) (r : Reply) : Prop where
  encode_eq : r.encode = .ok packet
  command_eq : r.command = Command.getBoardInfo.byte

/-- A packet refuses the probe with a status. -/
def Refuses (packet : Bytes) (status : UInt16) : Prop :=
  ∃ r, Answers packet r ∧ r.status = status ∧ status ≠ 0

/-- A packet answers the probe with an identity. -/
def Names (packet : Bytes) (info : BoardInfo) : Prop :=
  ∃ r, Answers packet r ∧ r.status = 0 ∧ r.payload = info.toBytes

/-- A packet that answers the probe without a status names a board if and only if its payload is as
long as an identity, which is ten bytes. -/
theorem exists_names_iff {packet : Bytes} :
    (∃ info, Names packet info) ↔
      ∃ r, Answers packet r ∧ r.status = 0 ∧ r.payload.length = BoardInfo.size := by
  constructor
  · rintro ⟨info, r, ha, hstatus, hpayload⟩
    exact ⟨r, ha, hstatus, BoardInfo.exists_toBytes_iff.1 ⟨info, hpayload⟩⟩
  · rintro ⟨r, ha, hstatus, hlength⟩
    obtain ⟨info, hpayload⟩ := BoardInfo.exists_toBytes_iff.2 hlength
    exact ⟨info, r, ha, hstatus, hpayload⟩

/-- A board that is in the table of a configuration. -/
def Known (config : DiscoveryConfig) (vid pid : UInt16) : Prop :=
  ∃ descriptor ∈ config.knownBoards, descriptor.vid = vid ∧ descriptor.pid = pid

variable {config : DiscoveryConfig} {packet : Bytes} {info : BoardInfo} {status : UInt16}

theorem findBoard_eq_none_iff :
    config.findBoard info = none ↔ ¬ Known config info.vid info.pid := by
  unfold DiscoveryConfig.findBoard Known BoardDescriptor.describes
  simp

theorem intact_of_encode {r : Reply} (h : r.encode = .ok packet) :
    ∃ body, checkedBody packet = .ok body := by
  obtain ⟨-, rfl⟩ := Reply.of_encode h
  exact ⟨_, checkedBody_withChecksum _⟩

/-- What the parser makes of an intact packet. -/
theorem parse_of_encode {r : Reply} (h : r.encode = .ok packet) (expected : Command) :
    Reply.parse packet expected =
      if r.command ≠ expected.byte then .error (.unexpectedCommand expected.byte r.command)
      else if r.status ≠ 0 then .error (.boardStatus r.status)
      else .ok r := by
  obtain ⟨hfits, rfl⟩ := Reply.of_encode h
  have hparse := Reply.parse_packet_append hfits expected []
  rwa [List.append_nil] at hparse

theorem identified_of_refuses (h : Refuses packet status) :
    identified config packet = .error (.refused (.boardStatus status)) := by
  obtain ⟨r, ha, rfl, hstatus⟩ := h
  unfold identified
  rw [parse_of_encode ha.encode_eq, if_neg (not_not.2 ha.command_eq), if_pos hstatus]

theorem identified_of_names (h : Names packet info) :
    identified config packet =
      (config.findBoard info).elim (.error (.unknownBoard info.vid info.pid))
        fun descriptor => .ok (info, descriptor) := by
  obtain ⟨r, ha, hstatus, hpayload⟩ := h
  have hparse : Reply.parse packet .getBoardInfo = .ok r := by
    rw [parse_of_encode ha.encode_eq, if_neg (not_not.2 ha.command_eq),
      if_neg (not_not.2 hstatus)]
  have hinfo : BoardInfo.ofBytes r.payload = .ok info := by
    rw [hpayload, BoardInfo.ofBytes_toBytes]
  simp only [identified, hparse, hinfo]
  cases config.findBoard info <;> rfl

theorem identified_of_known (h : Names packet info) (hk : Known config info.vid info.pid) :
    ∃ descriptor, identified config packet = .ok (info, descriptor) := by
  cases hfind : config.findBoard info with
  | none => exact absurd hk (findBoard_eq_none_iff.1 hfind)
  | some descriptor =>
    exact ⟨descriptor, by rw [identified_of_names h, hfind, Option.elim_some]⟩

theorem identified_of_unknown (h : Names packet info) (hk : ¬ Known config info.vid info.pid) :
    identified config packet = .error (.unknownBoard info.vid info.pid) := by
  rw [identified_of_names h, findBoard_eq_none_iff.2 hk, Option.elim_none]

/-- What a reply packet settles: it refuses the probe, or it names a board, which is known or not,
or, if it does neither, it shows that the link is bad. -/
inductive Settles (config : DiscoveryConfig) (packet : Bytes) :
    Except AttemptError (BoardInfo × BoardDescriptor) → Prop
  | refused {status : UInt16} (h : Refuses packet status) :
    Settles config packet (.error (.refused (.boardStatus status)))
  | known {info : BoardInfo} {descriptor : BoardDescriptor} (h : Names packet info)
    (hk : Known config info.vid info.pid) : Settles config packet (.ok (info, descriptor))
  | unknown {info : BoardInfo} (h : Names packet info) (hk : ¬ Known config info.vid info.pid) :
    Settles config packet (.error (.unknownBoard info.vid info.pid))
  | badLink {e : PacketError} (hr : ∀ status, ¬ Refuses packet status)
    (hn : ∀ info, ¬ Names packet info) : Settles config packet (.error (.integrity e))

theorem Settles.of_refuses (h : Refuses packet status) :
    Settles config packet (identified config packet) := by
  rw [identified_of_refuses h]
  exact .refused h

theorem Settles.of_names (h : Names packet info) :
    Settles config packet (identified config packet) := by
  by_cases hk : Known config info.vid info.pid
  · obtain ⟨descriptor, hi⟩ := identified_of_known h hk
    rw [hi]
    exact .known h hk
  · rw [identified_of_unknown h hk]
    exact .unknown h hk

theorem Settles.of_integrity {e : PacketError}
    (h : identified config packet = .error (.integrity e)) :
    Settles config packet (identified config packet) := by
  rw [h]
  refine .badLink (fun status hr => ?_) fun info hn => ?_
  · cases (identified_of_refuses hr).symm.trans h
  · by_cases hk : Known config info.vid info.pid
    · obtain ⟨descriptor, hi⟩ := identified_of_known hn hk
      cases hi.symm.trans h
    · cases (identified_of_unknown hn hk).symm.trans h

theorem isIntegrityFailure_of_checkedBody {e : PacketError} (h : checkedBody packet = .error e) :
    e.isIntegrityFailure = true := by
  unfold checkedBody at h
  split at h
  · cases h
    rfl
  · dsimp only at h
    split at h
    · cases h
    · cases h
      rfl

/-- What the parser makes of a reply packet is what the packet settles. -/
theorem settles_identified (hf : Reply.Framed packet) :
    Settles config packet (identified config packet) := by
  cases hbody : checkedBody packet with
  | error e =>
    refine .of_integrity (e := e) ?_
    have hsound := isIntegrityFailure_of_checkedBody hbody
    unfold identified
    rw [hf.parse_of_error hbody]
    cases e with
    | boardStatus status => cases hsound
    | _ => rfl
  | ok body =>
    obtain ⟨r, hr⟩ := hf.exists_encode hbody
    have hparse := parse_of_encode hr .getBoardInfo
    by_cases hcommand : r.command = Command.getBoardInfo.byte
    · by_cases hstatus : r.status = 0
      · rw [if_neg (not_not.2 hcommand), if_neg (not_not.2 hstatus)] at hparse
        cases hinfo : BoardInfo.ofBytes r.payload with
        | ok info =>
          exact .of_names ⟨r, ⟨hr, hcommand⟩, hstatus, (BoardInfo.toBytes_of_ofBytes hinfo).symm⟩
        | error e => exact .of_integrity (e := e) (by simp only [identified, hparse, hinfo])
      · exact .of_refuses ⟨r, ⟨hr, hcommand⟩, rfl, hstatus⟩
    · rw [if_pos hcommand] at hparse
      exact .of_integrity (e := .unexpectedCommand Command.getBoardInfo.byte r.command)
        (by simp only [identified, hparse])

section

variable (hf : Reply.Framed packet)

include hf

theorem identified_refused_iff {e : PacketError} :
    identified config packet = .error (.refused e) ↔
      ∃ status, Refuses packet status ∧ e = .boardStatus status := by
  refine ⟨fun h => ?_, ?_⟩
  · have hs : Settles config packet _ := settles_identified hf
    rw [h] at hs
    cases hs with
    | refused hr => exact ⟨_, hr, rfl⟩
  · rintro ⟨status, hr, rfl⟩
    exact identified_of_refuses hr

theorem identified_ok_iff :
    (∃ found, identified config packet = .ok found) ↔
      ∃ info, Names packet info ∧ Known config info.vid info.pid := by
  constructor
  · rintro ⟨found, h⟩
    have hs : Settles config packet _ := settles_identified hf
    rw [h] at hs
    cases hs with
    | known hn hk => exact ⟨_, hn, hk⟩
  · rintro ⟨info, hn, hk⟩
    obtain ⟨descriptor, hi⟩ := identified_of_known hn hk
    exact ⟨_, hi⟩

theorem identified_unknownBoard_iff {vid pid : UInt16} :
    identified config packet = .error (.unknownBoard vid pid) ↔
      ∃ info, Names packet info ∧ info.vid = vid ∧ info.pid = pid ∧ ¬ Known config vid pid := by
  refine ⟨fun h => ?_, ?_⟩
  · have hs : Settles config packet _ := settles_identified hf
    rw [h] at hs
    cases hs with
    | unknown hn hk => exact ⟨_, hn, rfl, rfl, hk⟩
  · rintro ⟨info, hn, rfl, rfl, hk⟩
    exact identified_of_unknown hn hk

theorem identified_integrity_iff :
    (∃ e, identified config packet = .error (.integrity e)) ↔
      (∀ status, ¬ Refuses packet status) ∧ ∀ info, ¬ Names packet info := by
  have hs : Settles config packet _ := settles_identified hf
  generalize identified config packet = result at hs
  constructor
  · rintro ⟨e, rfl⟩
    cases hs with
    | badLink hr hn => exact ⟨hr, hn⟩
  · rintro ⟨hr, hn⟩
    cases hs with
    | refused h => exact absurd h (hr _)
    | known h _ => exact absurd h (hn _)
    | unknown h _ => exact absurd h (hn _)
    | badLink => exact ⟨_, rfl⟩

theorem identified_ne_transport (e : TransportError) :
    identified config packet ≠ .error (.transport e) := by
  intro h
  have hs : Settles config packet _ := settles_identified hf
  rw [h] at hs
  cases hs

/-- A final failure comes of an intact packet. -/
theorem intact_of_identified {cause : AttemptError}
    (h : identified config packet = .error cause) (hfinal : cause.isRetryable = false) :
    ∃ body, checkedBody packet = .ok body := by
  have hs : Settles config packet _ := settles_identified hf
  rw [h] at hs
  cases hs with
  | refused hr =>
    obtain ⟨r, ha, -⟩ := hr
    exact intact_of_encode ha.encode_eq
  | unknown hn _ =>
    obtain ⟨r, ha, -⟩ := hn
    exact intact_of_encode ha.encode_eq
  | badLink => cases hfinal

end

/-! ## The first reply -/

/-- The first reply packet is the first one in the framing. -/
theorem findSome?_reply? (heard : Bytes) :
    (framing maxFramePayload heard).packets.findSome? reply? = firstReply heard := by
  rw [← List.head?_filterMap, ← map_fst_allWanted, List.head?_map, head?_allWanted, Option.map_map]
  exact Option.map_id'

theorem framed_of_firstReply {heard : Bytes} (h : firstReply heard = some packet) :
    Reply.Framed packet := by
  obtain ⟨place, size, -, hv⟩ := exists_place_of_firstReply h
  exact Reply.framed_of_verdict hv

/-- A reply stands in the bytes that were heard before those that follow it. -/
theorem exists_before_of_taken {heard rest : Bytes}
    (h : (takeUntil reply? maxFramePayload heard).taken = (some packet, rest)) :
    ∃ before, heard = before ++ packet ++ rest := by
  obtain ⟨place, p, size, hr, hv, hw, hrest⟩ :=
    reaches_of_mem_allWanted (allWanted_of_some h ▸ List.mem_cons_self)
  obtain ⟨before, rfl⟩ := hr.suffix
  cases p with
  | frame header bytes => cases hw
  | reply bytes =>
    cases hw
    refine ⟨before, ?_⟩
    rw [List.append_assoc, hrest, show packet = place.take size from bytes_of_verdict hv,
      List.take_append_drop]

/-! ## Attempts -/

/-- The bytes that come to an attempt before the deadline of its probe, and before a read fails. -/
def delivered (config : DiscoveryConfig) (course : List Exchange) : Bytes :=
  deliveredBefore (PacketReader.deadlineOf config.probeTimeout course) course

/-- The first reply packet in the framing of these bytes. -/
def replyIn (config : DiscoveryConfig) (course : List Exchange) : Option Bytes :=
  (framing maxFramePayload (delivered config course)).packets.findSome? reply?

/-- A line could not be opened, or the probe could not be written. -/
def Unavailable (course : List Exchange) (error : TransportError) : Prop :=
  (∃ identifier baudRate, ⟨.openLine identifier baudRate, .error error⟩ ∈ course) ∨
    .error error ∈ writes course

/-- Why an attempt comes to an error of the line. -/
inductive LineFailed (config : DiscoveryConfig) (course : List Exchange) : TransportError → Prop
  | unavailable {error : TransportError} (h : Unavailable course error) :
    LineFailed config course error
  | notRead {error : TransportError} (h : .failed error ∈ reads course) :
    LineFailed config course error
  | late (waitedMs : Nat)
    (h : PacketReader.deadlineOf config.probeTimeout course ≤ (times course).getLastD 0) :
    LineFailed config course (.timeout waitedMs)

/-- What an attempt comes to, told by the first reply packet. -/
structure Decided (config : DiscoveryConfig) (course : List Exchange)
    (result : Except AttemptError Session) : Prop where
  /-- It succeeds if and only if the reply names a known board. -/
  ok_iff : (∃ session, result = .ok session) ↔
    ∃ packet info, replyIn config course = some packet ∧ Names packet info ∧
      Known config info.vid info.pid
  /-- The board has refused if and only if the reply has a status. -/
  refused_iff : ∀ e, result = .error (.refused e) ↔
    ∃ packet status, replyIn config course = some packet ∧ Refuses packet status ∧
      e = .boardStatus status
  /-- The board is unknown if and only if the reply names another one. -/
  unknownBoard_iff : ∀ vid pid, result = .error (.unknownBoard vid pid) ↔
    ∃ packet info, replyIn config course = some packet ∧ Names packet info ∧
      info.vid = vid ∧ info.pid = pid ∧ ¬ Known config vid pid
  /-- The link is bad if and only if the reply is any other packet. -/
  integrity_iff : (∃ e, result = .error (.integrity e)) ↔
    ∃ packet, replyIn config course = some packet ∧ (∀ status, ¬ Refuses packet status) ∧
      ∀ info, ¬ Names packet info
  /-- The line has failed if and only if there is no reply. -/
  transport_iff : (∃ e, result = .error (.transport e)) ↔ replyIn config course = none
  lineFailed : ∀ e, result = .error (.transport e) → LineFailed config course e
  unavailable : ∀ e, Unavailable course e → result = .error (.transport e)
  /-- Nothing but the reply tells what is found, or what is wrong. -/
  told : ∀ packet, replyIn config course = some packet →
    result.map (fun session => (session.info, session.descriptor)) = identified config packet
  /-- A failure that is final comes from an intact reply. -/
  intact : ∀ cause, result = .error cause → cause.isRetryable = false →
    ∃ packet body, replyIn config course = some packet ∧ checkedBody packet = .ok body
  /-- The session keeps what came after the reply. -/
  kept : ∀ session, result = .ok session →
    ∃ before packet, replyIn config course = some packet ∧
      delivered config course = before ++ packet ++ session.reader.bytes ∧
      (allWanted reply? maxFramePayload (delivered config course)).head? =
        some (packet, session.reader.bytes)

section

variable {course : List Exchange}

/-- The link is bad if and only if there is a first reply and it is damaged or echoes some other
command, or else it has no status and not ten bytes of payload. -/
theorem Decided.integrity_iff_length {result : Except AttemptError Session}
    (h : Decided config course result) :
    (∃ e, result = .error (.integrity e)) ↔
      ∃ packet, replyIn config course = some packet ∧
        ∀ r, Answers packet r → r.status = 0 ∧ r.payload.length ≠ BoardInfo.size := by
  rw [h.integrity_iff]
  refine exists_congr fun packet => and_congr_right fun _ => ⟨fun ⟨hr, hn⟩ r ha => ?_, fun hu => ?_⟩
  · have hstatus : r.status = 0 := not_not.1 fun hne => hr r.status ⟨r, ha, rfl, hne⟩
    refine ⟨hstatus, fun hlength => ?_⟩
    obtain ⟨info, hnames⟩ := exists_names_iff.2 ⟨r, ha, hstatus, hlength⟩
    exact hn info hnames
  · refine ⟨?_, fun info hnames => ?_⟩
    · rintro status ⟨r, ha, rfl, hne⟩
      exact hne (hu r ha).1
    · obtain ⟨r, ha, -, hlength⟩ := exists_names_iff.1 ⟨info, hnames⟩
      exact (hu r ha).2 hlength

theorem map_eq_error_iff {ε α β : Type} {x : Except ε α} {f : α → β} {e : ε} :
    x.map f = .error e ↔ x = .error e := by
  cases x with
  | error cause => exact ⟨fun h => by cases h; rfl, fun h => by cases h; rfl⟩
  | ok a => exact ⟨nofun, nofun⟩

theorem map_eq_ok_iff {ε α β : Type} {x : Except ε α} {f : α → β} {b : β} :
    x.map f = .ok b ↔ ∃ a, x = .ok a ∧ f a = b := by
  cases x with
  | error cause => exact ⟨nofun, nofun⟩
  | ok a => exact ⟨fun h => ⟨a, rfl, Except.ok.inj h⟩, fun ⟨_, h, hf⟩ => by cases h; rw [← hf]; rfl⟩

/-- Without a reply it is the line that failed. -/
theorem Decided.of_none {error : TransportError} (hreply : replyIn config course = none)
    (hline : LineFailed config course error)
    (hunavailable : ∀ e, Unavailable course e → e = error) :
    Decided config course (.error (.transport error)) where
  ok_iff := by rw [hreply]; exact ⟨nofun, nofun⟩
  refused_iff _ := by rw [hreply]; exact ⟨nofun, nofun⟩
  unknownBoard_iff _ _ := by rw [hreply]; exact ⟨nofun, nofun⟩
  integrity_iff := by rw [hreply]; exact ⟨nofun, nofun⟩
  transport_iff := ⟨fun _ => hreply, fun _ => ⟨error, rfl⟩⟩
  lineFailed := by rintro _ ⟨⟩; exact hline
  unavailable e h := by rw [hunavailable e h]
  told _ h := by rw [hreply] at h; cases h
  intact := by rintro _ ⟨⟩ ⟨⟩
  kept := nofun

/-- With a reply it is told by the reply. -/
theorem Decided.of_some {identifier : String} {baudRate : UInt32} {line : Nat}
    {reader : PacketReader} (hunavailable : ∀ e, ¬ Unavailable course e)
    (ht : (takeUntil reply? maxFramePayload (delivered config course)).taken =
      (some packet, reader.bytes)) :
    Decided config course
      ((identified config packet).map (sessionOf config identifier baudRate line reader)) := by
  have hreply : replyIn config course = some packet :=
    (findSome?_reply? _).trans (congrArg Prod.fst ht)
  have hf : Reply.Framed packet :=
    framed_of_firstReply ((findSome?_reply? _).symm.trans hreply)
  generalize hresult : (identified config packet).map
    (sessionOf config identifier baudRate line reader) = result
  have herror : ∀ e, result = .error e ↔ identified config packet = .error e := by
    rw [← hresult]
    exact fun e => map_eq_error_iff
  have hok : ∀ session, result = .ok session ↔ ∃ found, identified config packet = .ok found ∧
      sessionOf config identifier baudRate line reader found = session := by
    rw [← hresult]
    exact fun session => map_eq_ok_iff
  have hnone : ∀ e, result ≠ .error (.transport e) :=
    fun e h => identified_ne_transport hf e ((herror _).1 h)
  refine ⟨?found, fun e => ?refused, fun vid pid => ?unknownBoard, ?integrity, ?transport,
    fun e h => absurd h (hnone e), fun e h => absurd h (hunavailable e), fun packet' h => ?told,
    fun cause h hfinal => ?intact, fun session h => ?kept⟩
  case found =>
    have hfound : (∃ session, result = .ok session) ↔
        ∃ found, identified config packet = .ok found :=
      ⟨fun ⟨_, h⟩ => ((hok _).1 h).imp fun _ => And.left,
        fun ⟨_, h⟩ => ⟨_, (hok _).2 ⟨_, h, rfl⟩⟩⟩
    simp only [hreply, hfound, identified_ok_iff hf, Option.some.injEq, exists_and_left,
      exists_eq_left']
  case refused =>
    simp only [hreply, herror, identified_refused_iff hf, Option.some.injEq, exists_and_left,
      exists_eq_left']
  case unknownBoard =>
    simp only [hreply, herror, identified_unknownBoard_iff hf, Option.some.injEq, exists_and_left,
      exists_eq_left']
  case integrity =>
    simp only [hreply, herror, identified_integrity_iff hf, Option.some.injEq, exists_eq_left']
  case transport =>
    rw [hreply]
    exact ⟨fun ⟨e, h⟩ => absurd h (hnone e), nofun⟩
  case told =>
    cases hreply.symm.trans h
    rw [← hresult]
    cases identified config packet <;> rfl
  case intact =>
    obtain ⟨body, hbody⟩ := intact_of_identified hf ((herror cause).1 h) hfinal
    exact ⟨packet, body, hreply, hbody⟩
  case kept =>
    obtain ⟨before, hbefore⟩ := exists_before_of_taken ht
    obtain ⟨found, -, rfl⟩ := (hok session).1 h
    exact ⟨before, packet, hreply, hbefore, congrArg List.head? (allWanted_of_some ht)⟩

/-! ## Courses -/

theorem replyIn_of_reads (h : reads course = []) : replyIn config course = none := by
  have hdelivered : delivered config course = [] := by
    rw [delivered, deliveredBefore, readsBefore_eq_reads (inTime_of_reads h), h]
    rfl
  rw [replyIn, hdelivered, framing_nil]
  rfl

/-- All that is heard in the course of an attempt is heard in an exchange on the line that it
opened. -/
structure OnLine (config : DiscoveryConfig) (course heard : List Exchange) : Prop where
  reads_eq : reads course = reads heard
  writes_eq : writes course = writes heard
  times_eq : times course = times heard
  inTime : ∀ x ∈ clocked 0 course, InTime (PacketReader.deadlineOf config.probeTimeout course) x
  opened : ∀ identifier baudRate error, ⟨.openLine identifier baudRate, .error error⟩ ∉ course

/-- An attempt fails to open a line, or makes an exchange on the line that it opened and judges what
comes of it. -/
theorem course_of_attempt {budget : Nat} {identifier : String} {baudRate : UInt32}
    {e : Ending (Except AttemptError Session)}
    (h : Follows (attempt budget config identifier baudRate) course e) :
    (∃ error, course = [⟨.report (.probing identifier baudRate), ()⟩,
        ⟨.openLine identifier baudRate, .error error⟩] ∧ e = .ok (.error (.transport error))) ∨
    ∃ line heard m, OnLine config course heard ∧
      Follows ((PacketReader.empty maxFramePayload).exchange budget line .getBoardInfo []
        config.probeTimeout) heard m ∧
      e = m.map fun r =>
        (judge config r.1).map (sessionOf config identifier baudRate line r.2) := by
  obtain ⟨_, rest, rfl, h₁⟩ := Follows.of_ask h
  obtain ⟨opened, rest, rfl, h₂⟩ := Follows.of_ask h₁
  cases opened with
  | error error =>
    obtain ⟨rfl, rfl⟩ := Follows.of_done h₂
    exact .inl ⟨error, rfl, rfl⟩
  | ok line =>
    obtain ⟨heard, closing, m, rfl, hm, hcalls, hx, rfl⟩ := follows_opened h₂
    refine .inr ⟨line, heard, m, ?_, hx, rfl⟩
    have hclosing := no_call_of_calls hcalls
    have hheard := (PacketReader.handless_exchange _ _ _ _ _ _).no_call hx
    obtain ⟨hwrites, hreads, htimes⟩ := hm
    rw [untilCall_of_no_call hclosing] at hwrites hreads htimes
    have htimes' : times (heard ++ closing) = times heard := by
      rw [times_append, htimes, List.append_nil]
    refine ⟨?reads, ?writes, htimes', ?inTime, ?opened⟩
    case reads =>
      show reads (heard ++ closing) = reads heard
      rw [reads_append, hreads, List.append_nil]
    case writes =>
      show writes (heard ++ closing) = writes heard
      rw [writes_append, hwrites, List.append_nil]
    case inTime =>
      have hdeadline : PacketReader.deadlineOf config.probeTimeout (heard ++ closing) =
          PacketReader.deadlineOf config.probeTimeout heard := by
        rw [PacketReader.deadlineOf, htimes']
        rfl
      refine List.forall_mem_cons.2 ⟨nofun, List.forall_mem_cons.2 ⟨nofun, ?_⟩⟩
      show ∀ x ∈ clocked 0 (heard ++ closing),
        InTime (PacketReader.deadlineOf config.probeTimeout (heard ++ closing)) x
      rw [hdeadline]
      exact inTime_append.2 ⟨PacketReader.inTime_of_exchange rfl hx 0, inTime_of_reads hreads⟩
    case opened =>
      intro identifier' baudRate' error hmem
      rcases List.mem_cons.1 hmem with he | hmem
      · cases he
      rcases List.mem_cons.1 hmem with he | hmem
      · cases he
      rcases List.mem_append.1 hmem with hmem | hmem
      · cases hheard _ hmem
      · cases hclosing _ hmem

variable {heard : List Exchange} {budget line : Nat}

theorem OnLine.delivered_eq (hon : OnLine config course heard)
    {m : Ending (Waited Bytes × PacketReader)}
    (ha : Awaits reply? budget (.empty maxFramePayload) (reads heard) m) :
    delivered config course = received (reads heard) := by
  rw [delivered, deliveredBefore, readsBefore_eq_reads hon.inTime, hon.reads_eq,
    ha.received_takeWhile]

theorem OnLine.not_unavailable (hon : OnLine config course heard) (hw : writes heard = [.ok ()])
    (error : TransportError) : ¬ Unavailable course error := by
  rintro (⟨identifier, baudRate, h⟩ | h)
  · exact hon.opened _ _ _ h
  · rw [hon.writes_eq, hw] at h
    cases List.mem_singleton.1 h

/-- What a wait for the reply finds decides the attempt. -/
theorem OnLine.decided {identifier : String} {baudRate : UInt32}
    {e : Ending (Except LinkError Bytes × PacketReader)} (hon : OnLine config course heard)
    (hx : Follows ((PacketReader.empty maxFramePayload).exchange budget line .getBoardInfo []
      config.probeTimeout) heard e)
    (hw : writes heard = [.ok ()]) {x : Waited Bytes × PacketReader}
    (ha : Awaits reply? budget (.empty maxFramePayload) (reads heard) (.ok x)) :
    Decided config course (concluded config
      ⟨identifier, baudRate, .ok line, writes heard, reads heard, times heard⟩ line x) := by
  let w := PacketReader.replyWait .getBoardInfo 0
  have hf : w.Facing maxFramePayload (received (reads heard)) (.empty maxFramePayload)
      (received (reads heard) ++ []) := ⟨rfl, by rw [List.append_nil]; rfl⟩
  have hleft := Wait.Facing.of_awaits [] ha hf
  have hdelivered := hon.delivered_eq ha
  have hno := hon.not_unavailable hw
  obtain ⟨packet | _ | error, reader⟩ := x
  · have ht := hleft.2
    rw [List.append_nil, ← hdelivered] at ht
    exact Decided.of_some hno ht
  · have hnone : firstReply (received (reads heard)) = none := hleft.1.none_of_nil hleft.2
    refine Decided.of_none ?_ (.late _ ?_) fun e h => absurd h (hno e)
    · rw [replyIn, findSome?_reply?, hdelivered, hnone]
    · rw [PacketReader.deadlineOf, hon.times_eq]
      exact PacketReader.deadline_le_of_exchange rfl hx hw ha
  · have hnone : firstReply (received (reads heard)) = none := hleft.1.none_of_nil hleft.2
    refine Decided.of_none ?_ (.notRead ?_) fun e h => absurd h (hno e)
    · rw [replyIn, findSome?_reply?, hdelivered, hnone]
    · obtain ⟨pieces, hreads⟩ := ha.reads_eq
      rw [hon.reads_eq, hreads]
      exact List.mem_append_right _ (List.mem_singleton_self _)

/-- An attempt comes to a result that the first reply decides, unless a read crashes or there are as
many reads as there may be. -/
def ComesTo (budget : Nat) (config : DiscoveryConfig) (course : List Exchange) :
    Ending (Except AttemptError Session) → Prop
  | .error why => why.ShownBy budget (reads course)
  | .ok result => Decided config course result

/-- An attempt reads its line before the deadline of the probe only, and is decided by the first
reply that comes. -/
theorem decided_of_follows {identifier : String} {baudRate : UInt32}
    {e : Ending (Except AttemptError Session)}
    (h : Follows (attempt budget config identifier baudRate) course e) :
    (∀ x ∈ clocked 0 course, InTime (PacketReader.deadlineOf config.probeTimeout course) x) ∧
      ComesTo budget config course e := by
  rcases course_of_attempt h with ⟨error, rfl, rfl⟩ | ⟨line, heard, m, hon, hx, rfl⟩
  · refine ⟨inTime_of_reads rfl, Decided.of_none (replyIn_of_reads rfl) ?_ ?_⟩
    · exact .unavailable (.inl ⟨_, _, List.mem_cons_of_mem _ (List.mem_singleton_self _)⟩)
    · rintro e (⟨identifier', baudRate', h⟩ | h)
      · rcases List.mem_cons.1 h with h | h
        · cases h
        · cases List.mem_singleton.1 h
          rfl
      · cases h
  refine ⟨hon.inTime, ?_⟩
  rcases PacketReader.follows_exchange rfl hx with
    ⟨error, hw, hr, rfl⟩ | ⟨started, later, m, hw, ht, ha, rfl⟩
  · refine Decided.of_none (replyIn_of_reads (hon.reads_eq.trans hr)) ?_ ?_
    · exact .unavailable (.inr (by rw [hon.writes_eq, hw]; exact List.mem_singleton_self _))
    · rintro e (⟨identifier', baudRate', h⟩ | h)
      · exact absurd h (hon.opened _ _ _)
      · rw [hon.writes_eq, hw] at h
        cases List.mem_singleton.1 h
        rfl
  · cases m with
    | error why =>
      show why.ShownBy budget (reads course)
      rw [hon.reads_eq]
      exact ha.shownBy
    | ok x =>
      let call : Call := ⟨identifier, baudRate, .ok line, writes heard, reads heard, times heard⟩
      have hjudge := judge_result config line (show call.times = _ from ht) x
      exact (congrArg (Decided config course) hjudge).mpr (hon.decided hx hw ha)

end

/-- Whatever its surroundings answer, an attempt reads its line before the deadline of the probe
only, at most a chunk at a time, and comes to a result unless a read crashes or there are as many
reads as there may be. The result is told by the first reply packet in the framing of the bytes that
came by those reads before one failed: not by the frames before it, nor by the pieces in which it
came. -/
theorem attempt_decided {σ : Type} (answer : Surroundings σ) (s : σ) (budget : Nat)
    (config : DiscoveryConfig) (identifier : String) (baudRate : UInt32) :
    let probe := attempt budget config identifier baudRate
    let course := probe.course answer s
    (∀ x ∈ clocked 0 course, InTime (PacketReader.deadlineOf config.probeTimeout course) x) ∧
      match (probe.run answer s).1 with
      | .error why => why.ShownBy budget (reads course)
      | .ok result => Decided config course result :=
  decided_of_follows (follows_course answer _ s)

end Discovery

end RadarHost
