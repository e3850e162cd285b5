import RadarHost.Proofs.Link.Frames

/-!
# What a call takes off the stream

A call to read a frame takes packets off what the reader holds and its reads give, and leaves the
rest in the reader (`Session.TookCall`). At most one of them is a frame packet, the last, and the
call gives what is to be reported of it; `Session.tookCall_of_follows` says so of every course of a
call. A session that is closed, or given up in the middle of a call, asks for what closes its line
and for nothing else (`Session.follows_close`, `Session.of_protect_discard`).
-/

namespace RadarHost

open Dialogue

/-! ## What is asked -/

/-- What is asked while a frame is read. -/
def Action.Hears : Action → Prop
  | .read .. | .now | .report _ => True
  | _ => False

namespace PacketReader

theorem asks_fill (r : PacketReader) (line : Nat) (timeout : Duration) :
    (r.fill line timeout).Asks Action.Hears := by
  refine (Asks.perform trivial).bind fun answer => ?_
  cases answer <;> trivial

theorem asks_replyTurn (line : Nat) (command : Command) (started deadline : Instant)
    (r : PacketReader) : (replyTurn line command started deadline r).Asks Action.Hears := by
  refine (Asks.reportAll (fun _ => trivial) _).bind fun _ => ?_
  split
  · split <;> trivial
  · refine (Asks.perform trivial).bind fun now => ?_
    split
    · trivial
    · refine (asks_fill _ _ _).bind fun filled => ?_
      cases filled <;> trivial

theorem asks_frameTurn (line : Nat) (deadline : Instant) (r : PacketReader) :
    (frameTurn line deadline r).Asks Action.Hears := by
  refine (Asks.reportAll (fun _ => trivial) _).bind fun _ => ?_
  split
  · trivial
  · refine (Asks.perform trivial).bind fun now => ?_
    split
    · trivial
    · refine (asks_fill _ _ _).bind fun filled => ?_
      cases filled <;> trivial

theorem asks_nextFrame (budget line : Nat) (timeout : Duration) (r : PacketReader) :
    (r.nextFrame budget line timeout).Asks Action.Hears :=
  (Asks.perform trivial).bind fun _ => Asks.loop (asks_frameTurn _ _) _ _

end PacketReader

theorem Session.asks_readFrame (budget : Nat) (timeout : Duration) (s : Session) :
    (s.readFrame budget timeout).Asks Action.Hears := by
  unfold readFrame
  split
  · trivial
  · refine (s.reader.asks_nextFrame _ _ _).bind fun found => ?_
    split
    split
    · trivial
    · trivial
    · split
      · trivial
      · exact (Asks.reportAll (fun _ => trivial) _).bind fun _ => trivial

/-! ## Calls -/

namespace Session

/-- What is to be reported of the frame packets among some packets, in order. -/
def reportsOf (packets : List Packet) : List (Except LinkError Frame) :=
  (packets.filterMap Packet.frame?).map report

@[simp] theorem reportsOf_append (packets others : List Packet) :
    reportsOf (packets ++ others) = reportsOf packets ++ reportsOf others := by
  unfold reportsOf
  rw [List.filterMap_append, List.map_append]

/-- What a call that heard some reads has taken off the stream that they go on with: no more than
one frame packet, the last, of which it has given what is to be reported. -/
structure TookCall (s : Session) (packets : List Packet) (reads : List ReadAnswer)
    (result : Except LinkError (Option Frame)) (s' : Session) : Prop where
  line_eq : s'.line = s.line
  identifier_eq : s'.identifier = s.identifier
  limit_eq : s'.reader.limit = s.reader.limit
  took : Packet.Took s.reader.limit (s.reader.bytes ++ received reads) packets s'.reader.bytes
  reports_eq : reportsOf packets = (reported? result).toList
  reads_eq : ∃ pieces : List Bytes,
    reads = pieces.map .bytes ++ ((lineError? result).map .failed).toList
  none_left : reported? result = none →
    (Packet.framing s.reader.limit s'.reader.bytes).packets = []

section

variable {s s' : Session} {line budget : Nat} {timeout : Duration} {course : List Exchange}
  {packets : List Packet} {reads : List ReadAnswer} {result : Except LinkError (Option Frame)}

theorem TookCall.of_drew {reader : PacketReader} {packet : Option (FrameHeader × Bytes)}
    {lastSequence : Option UInt32} (h : s.reader.Drew Packet.frame? reads packets packet reader)
    (hresult : reported? result = packet.map given)
    (hreads : ∃ pieces : List Bytes,
      reads = pieces.map .bytes ++ ((lineError? result).map .failed).toList) :
    TookCall s packets reads result { s with reader, lastSequence } where
  line_eq := rfl
  identifier_eq := rfl
  limit_eq := h.limit_eq
  took := h.took
  reports_eq := by
    rw [reportsOf, h.wanted_eq, hresult]
    cases packet with
    | none => rfl
    | some packet =>
      obtain ⟨header, packet⟩ := packet
      have hmem : (header, packet) ∈ Packet.frames s.reader.limit (s.reader.bytes ++ received reads)
        := (h.took.packets_prefix.filterMap Packet.frame?).mem
          (h.wanted_eq ▸ List.mem_singleton_self _)
      show [report (header, packet)] = [given (header, packet)]
      rw [given_eq_report (Packet.length_of_mem_frames hmem)]
  reads_eq := hreads
  none_left hnone := h.none_left (Option.map_eq_none_iff.1 (hresult.symm.trans hnone))

theorem tookCall_of_follows (hl : s.line = some line)
    (h : Follows (s.readFrame budget timeout) course (.ok (result, s'))) :
    ∃ packets, TookCall s packets (Dialogue.reads course) result s' := by
  obtain ⟨m, ha, hm⟩ := callMakes_of_follows hl h
  cases hm with
  | given lastSequence hg =>
    obtain ⟨packets, hd⟩ := ha.drew
    exact ⟨packets, .of_drew hd hg (lineError?_of_reported? hg ▸ ha.reads_eq)⟩
  | late reader =>
    obtain ⟨packets, hd⟩ := ha.drew
    exact ⟨packets, .of_drew hd rfl ha.reads_eq⟩
  | failed error reader =>
    obtain ⟨packets, hd⟩ := ha.drew
    exact ⟨packets, .of_drew hd rfl ha.reads_eq⟩

end

/-! ## Closing -/

/-- The exchanges by which a session is closed. -/
def closing (s : Session) : List Exchange :=
  match s.line with
  | none => []
  | some line => [⟨.close line, ()⟩, ⟨.report (.sessionClosed s.identifier), ()⟩]

theorem follows_close {s : Session} {course : List Exchange} {e : Ending Session}
    (h : Follows s.close course e) : course = s.closing ∧ e = .ok { s with line := none } := by
  cases s with
  | mk line =>
    cases line with
    | none => exact Follows.of_done h
    | some line =>
      obtain ⟨_, rest, rfl, hreport⟩ := Follows.of_ask h
      obtain ⟨_, rest, rfl, hdone⟩ := Follows.of_ask hreport
      obtain ⟨rfl, rfl⟩ := Follows.of_done hdone
      exact ⟨rfl, rfl⟩

theorem follows_discard {s : Session} {course : List Exchange} {e : Ending Unit}
    (h : Follows s.discard course e) : course = s.closing ∧ e = .ok () := by
  rcases Follows.of_bind (d := s.close) h with ⟨_, hclose, _⟩ | ⟨_, course, _, rfl, hclose, hdone⟩
  · cases (follows_close hclose).2
  · obtain ⟨rfl, rfl⟩ := Follows.of_done hdone
    exact ⟨(List.append_nil course).trans (follows_close hclose).1, rfl⟩

/-- A dialogue whose session is given up if it breaks off. -/
theorem of_protect_discard {α : Type} {s : Session} {d : Dialogue α} {course : List Exchange}
    {e : Ending α} (h : Follows (protect s.discard d) course e) :
    (∃ value, Follows d course (.ok value) ∧ e = .ok value) ∨
      ∃ why first, course = first ++ s.closing ∧ Follows d first (.error why) ∧ e = .error why := by
  rcases h.of_protect with hd | ⟨why, first, _, rfl, hd, ⟨_, hc, _⟩ | ⟨hc, rfl⟩⟩
  · exact .inl hd
  · cases (follows_discard hc).2
  · obtain ⟨rfl, -⟩ := follows_discard hc
    exact .inr ⟨why, first, rfl, hd, rfl⟩

theorem reads_closing (s : Session) : reads s.closing = [] := by
  unfold closing
  cases s.line <;> rfl

end Session

end RadarHost
