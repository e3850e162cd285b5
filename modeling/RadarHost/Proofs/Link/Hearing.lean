import RadarHost.Proofs.Link.Course
import RadarHost.Proofs.Link.Delivery
import RadarHost.Proofs.Packet.Taking

/-!
# What is heard on a line

Of all the answers that a wait for a packet is given, those to its reads decide what comes of it,
and the clock decides only how long it is said to have taken. `Awaits` says what the reads make of a
wait, and `Wait.awaits_of_follows` that a wait comes to just this; `PacketReader.follows_exchange`
and `PacketReader.follows_nextFrame` are its two cases.

The bytes that the reads gave make one stream with those that the reader held: the next wanted
packet is the first one of that stream (`Wait.Facing.of_awaits`), and the packets up to it are what
has been taken off the stream (`Awaits.drew`).
-/

namespace RadarHost

/-- The bytes that a read gave. -/
def ReadAnswer.piece : ReadAnswer → Bytes
  | bytes piece => piece
  | _ => []

/-- The error of a read that failed. -/
def ReadAnswer.error? : ReadAnswer → Option TransportError
  | failed error => some error
  | _ => none

/-- What some reads show of why nothing came after them: one crashed, or there were no fewer than
there may be. -/
def Breakdown.ShownBy (budget : Nat) (reads : List ReadAnswer) : Breakdown → Prop
  | crashed => .crashed ∈ reads
  | exhausted => budget ≤ reads.length

theorem Breakdown.ShownBy.append_left {budget : Nat} {reads : List ReadAnswer} {why : Breakdown}
    (h : why.ShownBy budget reads) (earlier : List ReadAnswer) :
    why.ShownBy budget (earlier ++ reads) := by
  cases why with
  | crashed => exact List.mem_append_right _ h
  | exhausted =>
    have h : budget ≤ reads.length := h
    show budget ≤ (earlier ++ reads).length
    rw [List.length_append]
    omega

namespace Dialogue

variable {α β : Type}

/-! ## Answers in a course -/

/-- What a read gave. -/
def Exchange.read? : Exchange → Option ReadAnswer
  | ⟨.read .., answer⟩ => some answer
  | _ => none

/-- What came of a write. -/
def Exchange.written? : Exchange → Option (Except TransportError Unit)
  | ⟨.write .., answer⟩ => some answer
  | _ => none

/-- What the clock said. -/
def Exchange.time? : Exchange → Option Instant
  | ⟨.now, answer⟩ => some answer
  | _ => none

/-- What the reads of a course gave, in order. -/
def reads (course : List Exchange) : List ReadAnswer := course.filterMap Exchange.read?

/-- What came of the writes of a course, in order. -/
def writes (course : List Exchange) : List (Except TransportError Unit) :=
  course.filterMap Exchange.written?

/-- What the clock said in a course, in order. -/
def times (course : List Exchange) : List Instant := course.filterMap Exchange.time?

/-- The bytes that some reads gave. -/
def received (reads : List ReadAnswer) : Bytes := reads.flatMap ReadAnswer.piece

section

variable (course later : List Exchange)

@[simp] theorem reads_append : reads (course ++ later) = reads course ++ reads later :=
  List.filterMap_append

@[simp] theorem writes_append : writes (course ++ later) = writes course ++ writes later :=
  List.filterMap_append

@[simp] theorem times_append : times (course ++ later) = times course ++ times later :=
  List.filterMap_append

end

theorem received_append (reads later : List ReadAnswer) :
    received (reads ++ later) = received reads ++ received later := List.flatMap_append

/-- Nothing is heard in a course of reports. -/
theorem filterMap_reports {f : Exchange → Option β} (hf : ∀ event, f ⟨.report event, ()⟩ = none)
    (events : List Event) :
    (events.map fun event => (⟨.report event, ()⟩ : Exchange)).filterMap f = [] := by
  rw [List.filterMap_map, List.filterMap_eq_nil_iff]
  exact fun event _ => hf event

theorem Follows.heard_of_reportAll {events : List Event} {course : List Exchange} {e : Ending Unit}
    (h : Follows (reportAll events) course e) :
    e = .ok () ∧ reads course = [] ∧ writes course = [] ∧ times course = [] := by
  obtain ⟨rfl, rfl⟩ := Follows.of_reportAll h
  exact ⟨rfl, filterMap_reports (fun _ => rfl) events, filterMap_reports (fun _ => rfl) events,
    filterMap_reports (fun _ => rfl) events⟩

end Dialogue

open Dialogue

/-! ## Waits -/

/-- What a wait for a packet finds. -/
inductive Waited (π : Type)
  | taken (packet : π)
  | late
  | failed (error : TransportError)

/-- The error of the read that ended a wait. -/
def Waited.error? {π : Type} : Waited π → Option TransportError
  | failed error => some error
  | _ => none

/-- The packet that a wait found. -/
def Waited.packet? {π : Type} : Waited π → Option π
  | taken packet => some packet
  | _ => none

/-- The reads that a wait for a packet asks for, in so many turns at most, and what they make of it:
a wanted packet is taken as soon as one is complete, and the reader keeps the rest. -/
inductive Awaits {π : Type} (wanted : Packet → Option π) :
    (budget : Nat) → PacketReader → List ReadAnswer → Ending (Waited π × PacketReader) → Prop
  | exhausted {r : PacketReader} : Awaits wanted 0 r [] (.error .exhausted)
  | taken {budget : Nat} {r : PacketReader} {p : π} (hp : (r.take wanted).packet = some p) :
    Awaits wanted (budget + 1) r [] (.ok (.taken p, (r.take wanted).reader))
  | late {budget : Nat} {r : PacketReader} (hp : (r.take wanted).packet = none) :
    Awaits wanted (budget + 1) r [] (.ok (.late, (r.take wanted).reader))
  | failed {budget : Nat} {r : PacketReader} (hp : (r.take wanted).packet = none)
    (error : TransportError) :
    Awaits wanted (budget + 1) r [.failed error] (.ok (.failed error, (r.take wanted).reader))
  | crashed {budget : Nat} {r : PacketReader} (hp : (r.take wanted).packet = none) :
    Awaits wanted (budget + 1) r [.crashed] (.error .crashed)
  | bytes {budget : Nat} {r : PacketReader} (hp : (r.take wanted).packet = none) {piece : Bytes}
    {reads : List ReadAnswer} {e : Ending (Waited π × PacketReader)}
    (h : Awaits wanted budget ((r.take wanted).reader.append piece) reads e) :
    Awaits wanted (budget + 1) r (.bytes piece :: reads) e

namespace Awaits

variable {π : Type} {wanted : Packet → Option π} {budget : Nat} {r : PacketReader}
  {reads : List ReadAnswer} {e : Ending (Waited π × PacketReader)}

/-- A wait breaks off only when a read crashes, or when it has asked for as many as it may. -/
theorem shownBy {why : Breakdown} (h : Awaits wanted budget r reads (.error why)) :
    why.ShownBy budget reads := by
  generalize he : (Except.error why : Ending (Waited π × PacketReader)) = e at h
  induction h with
  | exhausted =>
    cases he
    exact Nat.le_refl 0
  | taken hp => cases he
  | late hp => cases he
  | failed hp error => cases he
  | crashed hp =>
    cases he
    exact List.mem_singleton_self _
  | bytes hp h ih =>
    cases why with
    | crashed => exact List.mem_cons_of_mem _ (ih he)
    | exhausted => exact Nat.succ_le_succ (ih he)

/-- A read that fails ends the wait, with its error. -/
theorem filterMap_error? (h : Awaits wanted budget r reads e) :
    reads.filterMap ReadAnswer.error? = (e.toOption.bind (·.1.error?)).toList := by
  induction h with
  | bytes hp h ih => exact ih
  | _ => rfl

/-- The reads of a wait that comes to its end give bytes, but for one that fails. -/
theorem reads_eq {found : Waited π} {r' : PacketReader}
    (h : Awaits wanted budget r reads (.ok (found, r'))) :
    ∃ pieces : List Bytes, reads = pieces.map .bytes ++ (found.error?.map .failed).toList := by
  generalize he : (Except.ok (found, r') : Ending (Waited π × PacketReader)) = e at h
  induction h with
  | exhausted => cases he
  | taken hp =>
    cases he
    exact ⟨[], rfl⟩
  | late hp =>
    cases he
    exact ⟨[], rfl⟩
  | failed hp error =>
    cases he
    exact ⟨[], rfl⟩
  | crashed hp => cases he
  | @bytes _ _ _ piece _ _ h ih =>
    obtain ⟨pieces, rfl⟩ := ih he
    exact ⟨piece :: pieces, rfl⟩

end Awaits

/-! ## Packets drawn -/

/-- A reader has drawn some packets from what it held and what some reads gave, the last of them
one that was wanted if there is one, and if there is none it has left no packet. -/
structure PacketReader.Drew {π : Type} (wanted : Packet → Option π) (r : PacketReader)
    (reads : List ReadAnswer) (packets : List Packet) (packet : Option π) (r' : PacketReader) :
    Prop where
  limit_eq : r'.limit = r.limit
  took : Packet.Took r.limit (r.bytes ++ received reads) packets r'.bytes
  wanted_eq : packets.filterMap wanted = packet.toList
  none_left : packet = none → (Packet.framing r.limit r'.bytes).packets = []

namespace Awaits

variable {π : Type} {wanted : Packet → Option π} {budget : Nat} {r r' : PacketReader}
  {reads : List ReadAnswer} {e : Ending (Waited π × PacketReader)}

theorem drew_take {packet : Option π} (hp : (r.take wanted).packet = packet)
    (hn : received reads = []) :
    ∃ packets, r.Drew wanted reads packets packet (r.take wanted).reader := by
  obtain ⟨packets, took, wanted_eq⟩ := Packet.took_takeUntil wanted r.limit r.bytes
  rw [PacketReader.take_packet] at hp
  refine ⟨packets, PacketReader.limit_take .., ?_, hp ▸ wanted_eq, fun hnone => ?_⟩
  · rw [hn, List.append_nil, PacketReader.bytes_take]
    exact took
  · rw [PacketReader.bytes_take]
    exact Packet.packets_rest_of_none (hp.trans hnone)

/-- What a wait leaves in the reader is what is left of the stream when the packets are taken that
it passed over, and the one that it found. -/
theorem drew {found : Waited π} (h : Awaits wanted budget r reads (.ok (found, r'))) :
    ∃ packets, r.Drew wanted reads packets found.packet? r' := by
  generalize he : (Except.ok (found, r') : Ending (Waited π × PacketReader)) = e at h
  induction h with
  | exhausted => cases he
  | @taken _ r p hp =>
    cases he
    exact drew_take hp rfl
  | @late _ r hp =>
    cases he
    exact drew_take hp rfl
  | @failed _ r hp error =>
    cases he
    exact drew_take hp rfl
  | crashed hp => cases he
  | @bytes _ r hp piece reads _ h ih =>
    obtain ⟨first, hfirst⟩ : ∃ packets, r.Drew wanted [] packets none _ := drew_take hp rfl
    obtain ⟨others, hothers⟩ := ih he
    have limit_eq : ((r.take wanted).reader.append piece).limit = r.limit := hfirst.limit_eq
    have took := hfirst.took.append (piece ++ received reads)
    have others_took := hothers.took
    rw [limit_eq, PacketReader.bytes_append, List.append_assoc] at others_took
    simp only [received, List.flatMap_nil, List.append_nil] at took
    refine ⟨first ++ others, hothers.limit_eq.trans limit_eq, took.trans others_took, ?_,
      limit_eq ▸ hothers.none_left⟩
    rw [List.filterMap_append, hfirst.wanted_eq, hothers.wanted_eq]
    rfl

end Awaits

namespace Wait

variable {π α : Type} {w : Wait π α} {line budget : Nat} {deadline : Instant} {r : PacketReader}
  {course : List Exchange}

/-- What is made of what a wait finds, when the clock says `now`. -/
def result (w : Wait π α) (now : Instant) : Waited π → α
  | .taken packet => w.finish packet
  | .late => w.late now
  | .failed error => w.failed error

/-- What one turn of a wait hears, of the reads and of the clock, and what it comes to. -/
inductive TurnHeard (w : Wait π α) (r : PacketReader) :
    List ReadAnswer → List Instant → Ending (PacketReader ⊕ α × PacketReader) → Prop
  | taken {p : π} (hp : (r.take w.wanted).packet = some p) :
    TurnHeard w r [] [] (.ok (.inr (w.finish p, (r.take w.wanted).reader)))
  | late (hp : (r.take w.wanted).packet = none) (now : Instant) :
    TurnHeard w r [] [now] (.ok (.inr (w.late now, (r.take w.wanted).reader)))
  | bytes (hp : (r.take w.wanted).packet = none) (now : Instant) (piece : Bytes) :
    TurnHeard w r [.bytes piece] [now] (.ok (.inl ((r.take w.wanted).reader.append piece)))
  | failed (hp : (r.take w.wanted).packet = none) (now : Instant) (error : TransportError) :
    TurnHeard w r [.failed error] [now]
      (.ok (.inr (w.failed error, (r.take w.wanted).reader)))
  | crashed (hp : (r.take w.wanted).packet = none) (now : Instant) :
    TurnHeard w r [.crashed] [now] (.error .crashed)

theorem turnHeard_of_follows {e : Ending (PacketReader ⊕ α × PacketReader)}
    (h : Follows (w.turn line deadline r) course e) :
    writes course = [] ∧ TurnHeard w r (reads course) (times course) e := by
  rcases Follows.of_bind (d := reportAll _) h with ⟨why, hr, rfl⟩ | ⟨_, first, later, rfl, hr, h⟩
  · cases (Follows.of_reportAll hr).2
  obtain ⟨-, hreads, hwrites, htimes⟩ := hr.heard_of_reportAll
  rw [reads_append, writes_append, times_append, hreads, hwrites, htimes]
  simp only [List.nil_append]
  split at h
  · rename_i p hp
    obtain ⟨rfl, rfl⟩ := Follows.of_done h
    exact ⟨rfl, .taken hp⟩
  · rename_i hp
    obtain ⟨now, rest, rfl, hn⟩ := Follows.of_ask h
    change Follows (if deadline ≤ now then _ else _) rest e at hn
    split at hn
    · obtain ⟨rfl, rfl⟩ := Follows.of_done hn
      exact ⟨rfl, .late hp now⟩
    · obtain ⟨answer, rest, rfl, ha⟩ := Follows.of_ask hn
      cases answer with
      | bytes piece =>
        obtain ⟨rfl, rfl⟩ := Follows.of_done ha
        exact ⟨rfl, .bytes hp now piece⟩
      | failed error =>
        obtain ⟨rfl, rfl⟩ := Follows.of_done ha
        exact ⟨rfl, .failed hp now error⟩
      | crashed =>
        cases ha
        exact ⟨rfl, .crashed hp now⟩

/-- A wait comes to what its reads make of it. If it is too late, it is so by the last time that the
clock told; whichever time is put before those makes no difference. -/
theorem awaits_of_follows {e : Ending (α × PacketReader)}
    (h : Follows (loop (w.turn line deadline) budget r) course e) :
    writes course = [] ∧ ∃ m, Awaits w.wanted budget r (reads course) m ∧
      ∀ start, e = m.map fun x => (w.result ((times course).getLastD start) x.1, x.2) := by
  induction budget generalizing r course with
  | zero =>
    cases h
    exact ⟨rfl, _, .exhausted, fun _ => rfl⟩
  | succ budget ih =>
    rcases Follows.of_bind (d := w.turn line deadline r) h with
      ⟨why, ht, rfl⟩ | ⟨x, first, later, rfl, ht, h⟩
    · obtain ⟨hw, ht⟩ := turnHeard_of_follows ht
      generalize reads course = read, times course = time at ht ⊢
      cases ht with
      | crashed hp now => exact ⟨hw, _, .crashed hp, fun _ => rfl⟩
    · obtain ⟨hw, ht⟩ := turnHeard_of_follows ht
      rw [reads_append, writes_append, times_append, hw]
      generalize reads first = read, times first = time at ht ⊢
      cases ht with
      | taken hp =>
        obtain ⟨rfl, rfl⟩ := Follows.of_done h
        exact ⟨rfl, _, .taken hp, fun _ => rfl⟩
      | late hp now =>
        obtain ⟨rfl, rfl⟩ := Follows.of_done h
        exact ⟨rfl, _, .late hp, fun _ => rfl⟩
      | failed hp now error =>
        obtain ⟨rfl, rfl⟩ := Follows.of_done h
        exact ⟨rfl, _, .failed hp error, fun _ => rfl⟩
      | bytes hp now piece =>
        obtain ⟨hw, m, ha, he⟩ := ih h
        refine ⟨hw, m, .bytes hp ha, fun start => ?_⟩
        rw [List.singleton_append, List.getLastD_cons]
        exact he now

/-! ## Streams -/

variable {limit : Nat} {stream : Bytes}

/-- What a wait leaves that faced a stream: the next wanted packet has been taken, or the reader
faces it still and holds none. -/
def Left (w : Wait π α) (limit : Nat) (stream later : Bytes) :
    Ending (Waited π × PacketReader) → Prop
  | .ok (.taken p, r) =>
    r.limit = limit ∧ (Packet.takeUntil w.wanted limit stream).taken = (some p, r.bytes ++ later)
  | .ok (_, r) =>
    w.Facing limit stream r later ∧ (Packet.takeUntil w.wanted limit r.bytes).packet = none
  | .error _ => True

/-- The stream that a reader faces goes on with the bytes that the reads give. -/
theorem Facing.of_awaits {reads : List ReadAnswer} {e : Ending (Waited π × PacketReader)}
    (later : Bytes) (h : Awaits w.wanted budget r reads e)
    (hf : w.Facing limit stream r (received reads ++ later)) :
    w.Left limit stream later e := by
  induction h with
  | exhausted => trivial
  | taken hp => exact ⟨(PacketReader.limit_take ..).trans hf.limit_eq, hf.next hp⟩
  | late hp => exact ⟨hf.kept hp, hf.none_kept hp⟩
  | failed hp error => exact ⟨hf.kept hp, hf.none_kept hp⟩
  | crashed hp => trivial
  | bytes hp h ih =>
    rw [received, List.flatMap_cons, List.append_assoc] at hf
    exact ih (hf.kept hp).append

end Wait

/-! ## Replies and frames -/

namespace PacketReader

variable {budget line : Nat} {timeout : Duration} {r : PacketReader} {course : List Exchange}

/-- What is heard in an exchange, and what it comes to: the command cannot be written, or its reply
is awaited from the time that the clock told first. -/
theorem follows_exchange {command : Command} {payload packet : Bytes}
    {e : Ending (Except LinkError Bytes × PacketReader)}
    (hp : Request.encode ⟨command, payload⟩ = .ok packet)
    (h : Follows (r.exchange budget line command payload timeout) course e) :
    (∃ error, writes course = [.error error] ∧ reads course = [] ∧
      e = .ok (.error (.transport error), r)) ∨
    ∃ started later m, writes course = [.ok ()] ∧ times course = started :: later ∧
      Awaits Packet.reply? budget r (reads course) m ∧
      e = m.map fun x =>
        ((replyWait command started).result (later.getLastD started) x.1, x.2) := by
  unfold exchange at h
  rw [hp] at h
  obtain ⟨written, rest, rfl, hw⟩ := Follows.of_ask h
  cases written with
  | error error =>
    obtain ⟨rfl, rfl⟩ := Follows.of_done hw
    exact .inl ⟨error, rfl, rfl, rfl⟩
  | ok _ =>
    obtain ⟨started, rest, rfl, hl⟩ := Follows.of_ask hw
    change Follows (loop (replyTurn line command started _) budget r) rest e at hl
    rw [replyTurn_eq] at hl
    obtain ⟨hw, m, ha, he⟩ := Wait.awaits_of_follows hl
    refine .inr ⟨started, times rest, m, ?_, rfl, ha, he started⟩
    show Except.ok () :: writes rest = [.ok ()]
    rw [hw]

/-- What is heard in a wait for a frame, and what it comes to. -/
theorem follows_nextFrame
    {e : Ending (Except TransportError (Option (FrameHeader × Bytes)) × PacketReader)}
    (h : Follows (r.nextFrame budget line timeout) course e) :
    ∃ m, Awaits Packet.frame? budget r (reads course) m ∧
      e = m.map fun x => (frameWait.result 0 x.1, x.2) := by
  obtain ⟨now, rest, rfl, hl⟩ := Follows.of_ask h
  change Follows (loop (frameTurn line _) budget r) rest e at hl
  rw [frameTurn_eq] at hl
  obtain ⟨-, m, ha, he⟩ := Wait.awaits_of_follows hl
  refine ⟨m, ha, (he 0).trans ?_⟩
  -- a wait for a frame does not tell how late it is
  rcases m with why | ⟨_ | _ | error, reader⟩ <;> rfl

end PacketReader

end RadarHost
