import RadarHost.Proofs.Link.Hearing

/-!
# When a line is read

The clock of a course stands at the last time that was told (`clocked`). A wait asks for the time
before it reads the line, and reads it no more once the deadline has come
(`Wait.inTime_of_follows`), so that the reads of a wait are those that are asked for before its
deadline (`readsBefore_eq_reads`); and it is not given up as late before the deadline
(`Wait.deadline_le_of_follows`).
-/

namespace RadarHost

namespace Dialogue

/-! ## Clocks -/

/-- The exchanges of a course, each with the last time that had been told before it. -/
def clocked : Instant → List Exchange → List (Instant × Exchange)
  | _, [] => []
  | clock, x :: rest => (clock, x) :: clocked (x.time?.getD clock) rest

theorem map_snd_clocked (clock : Instant) (course : List Exchange) :
    (clocked clock course).map Prod.snd = course := by
  induction course generalizing clock with
  | nil => rfl
  | cons x rest ih => rw [clocked, List.map_cons, ih]

theorem clocked_append (clock : Instant) (course later : List Exchange) :
    clocked clock (course ++ later) =
      clocked clock course ++ clocked ((times course).getLastD clock) later := by
  induction course generalizing clock with
  | nil => rfl
  | cons x rest ih =>
    have hclock :
        (times rest).getLastD (x.time?.getD clock) = (times (x :: rest)).getLastD clock := by
      cases ht : x.time? with
      | none => rw [times, times, List.filterMap_cons_none ht]; rfl
      | some time => rw [times, times, List.filterMap_cons_some ht, List.getLastD_cons]; rfl
    rw [List.cons_append, clocked, clocked, ih, List.cons_append, hclock]

/-- An exchange at a time of the clock is no read, or one that waits at most until the deadline for
at most a chunk. -/
def InTime (deadline : Instant) (x : Instant × Exchange) : Prop :=
  ∀ line max timeout, x.2.1 = .read line max timeout →
    x.1 < deadline ∧ max = PacketReader.readChunk ∧ timeout = deadline - x.1

/-- What the reads gave, in order, that were asked for before a deadline. -/
def readsBefore (deadline : Instant) (course : List Exchange) : List ReadAnswer :=
  ((clocked 0 course).filter (·.1 < deadline)).filterMap (·.2.read?)

/-- The bytes that came by the reads asked for before a deadline, until one failed. -/
def deliveredBefore (deadline : Instant) (course : List Exchange) : Bytes :=
  received ((readsBefore deadline course).takeWhile (·.error?.isNone))

variable {deadline clock : Instant} {course later : List Exchange}

theorem Exchange.action_of_read? {x : Exchange} {answer : ReadAnswer} (h : x.read? = some answer) :
    ∃ line max timeout, x.1 = .read line max timeout := by
  obtain ⟨action, _⟩ := x
  cases action with
  | read line max timeout => exact ⟨line, max, timeout, rfl⟩
  | _ => cases h

theorem readsBefore_eq_reads (h : ∀ x ∈ clocked 0 course, InTime deadline x) :
    readsBefore deadline course = reads course := by
  have hreads : reads course = (clocked 0 course).filterMap (·.2.read?) := by
    rw [reads, ← map_snd_clocked 0 course, List.filterMap_map, map_snd_clocked]
    rfl
  rw [hreads, readsBefore, List.filterMap_filter]
  refine List.filterMap_congr fun x hx => ?_
  cases hr : x.2.read? with
  | none => exact ite_self _
  | some answer =>
    obtain ⟨line, max, timeout, hx'⟩ := Exchange.action_of_read? hr
    exact if_pos (decide_eq_true (h x hx line max timeout hx').1)

theorem reads_of_asks {α : Type} {d : Dialogue α} {e : Ending α} (hd : d.Asks (·.isRead = false))
    (h : Follows d course e) : reads course = [] := by
  refine List.filterMap_eq_nil_iff.2 fun x hx => ?_
  have hx := h.asks hd x hx
  obtain ⟨action, answer⟩ := x
  cases action with
  | read line max timeout => cases hx
  | _ => rfl

theorem inTime_of_reads (h : reads course = []) :
    ∀ x ∈ clocked clock course, InTime deadline x := by
  intro x hx line max timeout hread
  have hmem : x.2 ∈ course := map_snd_clocked clock course ▸ List.mem_map_of_mem hx
  have hnone := List.filterMap_eq_nil_iff.1 h x.2 hmem
  obtain ⟨time, action, answer⟩ := x
  obtain rfl : action = .read line max timeout := hread
  cases hnone

theorem le_of_mem_clocked {bound : Instant} (hc : bound ≤ clock)
    (ht : ∀ now ∈ times course, bound ≤ now) {x : Instant × Exchange}
    (hx : x ∈ clocked clock course) : bound ≤ x.1 := by
  induction course generalizing clock with
  | nil => cases hx
  | cons y rest ih =>
    rcases List.mem_cons.1 hx with rfl | hx
    · exact hc
    · cases hy : y.time? with
      | none =>
        rw [hy] at hx
        rw [times, List.filterMap_cons_none hy] at ht
        exact ih hc ht hx
      | some time =>
        rw [hy] at hx
        rw [times, List.filterMap_cons_some hy] at ht
        obtain ⟨htime, ht⟩ := List.forall_mem_cons.1 ht
        exact ih htime ht hx

/-- At and after its deadline nothing is read. -/
theorem reads_of_inTime (h : ∀ x ∈ clocked clock course, InTime deadline x)
    (hc : deadline ≤ clock) (ht : ∀ now ∈ times course, deadline ≤ now) : reads course = [] := by
  refine List.filterMap_eq_nil_iff.2 fun x hx => ?_
  rw [← map_snd_clocked clock course] at hx
  obtain ⟨y, hy, rfl⟩ := List.mem_map.1 hx
  cases hr : y.2.read? with
  | none => rfl
  | some answer =>
    obtain ⟨line, max, timeout, haction⟩ := Exchange.action_of_read? hr
    exact absurd (h y hy line max timeout haction).1 (Nat.not_lt_of_le (le_of_mem_clocked hc ht hy))

theorem inTime_append :
    (∀ x ∈ clocked clock (course ++ later), InTime deadline x) ↔
      (∀ x ∈ clocked clock course, InTime deadline x) ∧
        ∀ x ∈ clocked ((times course).getLastD clock) later, InTime deadline x := by
  rw [clocked_append, List.forall_mem_append]

end Dialogue

open Dialogue

namespace Wait

variable {π α : Type} {w : Wait π α} {line budget : Nat} {deadline : Instant} {r : PacketReader}
  {course : List Exchange}

/-! ## Waits -/

/-- What one turn of a wait asks, its reports aside, and when. -/
inductive TurnAsked (w : Wait π α) (line : Nat) (deadline : Instant) (r : PacketReader) :
    List Exchange → Prop
  | taken : TurnAsked w line deadline r []
  | late {now : Instant} (h : deadline ≤ now) : TurnAsked w line deadline r [⟨.now, now⟩]
  | read {now : Instant} (h : now < deadline) (answer : ReadAnswer) :
    TurnAsked w line deadline r
      [⟨.now, now⟩, ⟨.read line PacketReader.readChunk (deadline - now), answer⟩]

theorem turnAsked_of_follows {e : Ending (PacketReader ⊕ α × PacketReader)}
    (h : Follows (w.turn line deadline r) course e) :
    ∃ reports asked, course = reports ++ asked ∧ reads reports = [] ∧ times reports = [] ∧
      TurnAsked w line deadline r asked := by
  rcases Follows.of_bind (d := reportAll _) h with ⟨why, hr, rfl⟩ | ⟨_, first, rest, rfl, hr, h⟩
  · cases (Follows.of_reportAll hr).2
  obtain ⟨-, hreads, -, htimes⟩ := hr.heard_of_reportAll
  refine ⟨first, rest, rfl, hreads, htimes, ?_⟩
  split at h
  · obtain ⟨rfl, rfl⟩ := Follows.of_done h
    exact .taken
  · obtain ⟨now, rest, rfl, hn⟩ := Follows.of_ask h
    change Follows (if deadline ≤ now then _ else _) rest e at hn
    split at hn
    · rename_i hlate
      obtain ⟨rfl, rfl⟩ := Follows.of_done hn
      exact .late hlate
    · rename_i hlate
      obtain ⟨answer, rest, rfl, ha⟩ := Follows.of_ask hn
      have hrest : rest = [] := by
        cases answer with
        | bytes piece => exact (Follows.of_done ha).1
        | failed error => exact (Follows.of_done ha).1
        | crashed => cases ha; rfl
      rw [hrest]
      exact .read (Nat.lt_of_not_le hlate) answer

theorem inTime_of_turn {e : Ending (PacketReader ⊕ α × PacketReader)}
    (h : Follows (w.turn line deadline r) course e) (clock : Instant) :
    ∀ x ∈ clocked clock course, InTime deadline x := by
  obtain ⟨reports, asked, rfl, hreads, -, ha⟩ := turnAsked_of_follows h
  refine inTime_append.2 ⟨inTime_of_reads hreads, ?_⟩
  cases ha with
  | taken => exact List.forall_mem_nil _
  | late hlate => exact inTime_of_reads rfl
  | read hearly answer =>
    refine List.forall_mem_cons.2 ⟨nofun, List.forall_mem_singleton.2 ?_⟩
    rintro line max timeout ⟨⟩
    exact ⟨hearly, rfl, rfl⟩

/-- All reads of a wait are asked for before its deadline. -/
theorem inTime_of_follows {e : Ending (α × PacketReader)}
    (h : Follows (loop (w.turn line deadline) budget r) course e) (clock : Instant) :
    ∀ x ∈ clocked clock course, InTime deadline x := by
  induction budget generalizing r course clock with
  | zero =>
    cases h
    exact List.forall_mem_nil _
  | succ budget ih =>
    rcases Follows.of_bind (d := w.turn line deadline r) h with
      ⟨why, ht, rfl⟩ | ⟨result, first, later, rfl, ht, h⟩
    · exact inTime_of_turn ht clock
    · refine inTime_append.2 ⟨inTime_of_turn ht clock, ?_⟩
      cases result with
      | inl r' => exact ih h _
      | inr value =>
        obtain ⟨rfl, -⟩ := Follows.of_done h
        exact List.forall_mem_nil _

/-- A turn that hears the time and asks for no bytes then comes too late. -/
theorem deadline_le_of_turn {e : Ending (PacketReader ⊕ α × PacketReader)}
    (h : Follows (w.turn line deadline r) course e) {now : Instant} (hr : reads course = [])
    (ht : times course = [now]) : deadline ≤ now := by
  obtain ⟨reports, asked, rfl, hreads, htimes, ha⟩ := turnAsked_of_follows h
  rw [reads_append, hreads] at hr
  rw [times_append, htimes] at ht
  cases ha with
  | taken => cases ht
  | late hlate =>
    cases ht
    exact hlate
  | read hearly answer => cases hr

/-- A wait that is given up as late has been told a time that is not before its deadline. -/
theorem deadline_le_of_follows {e : Ending (α × PacketReader)} {r' : PacketReader}
    (h : Follows (loop (w.turn line deadline) budget r) course e)
    (ha : Awaits w.wanted budget r (reads course) (.ok (.late, r'))) (start : Instant) :
    deadline ≤ (times course).getLastD start := by
  induction budget generalizing r course start with
  | zero =>
    generalize reads course = read at ha
    cases ha
  | succ budget ih =>
    rcases Follows.of_bind (d := w.turn line deadline r) h with
      ⟨why, ht, rfl⟩ | ⟨result, first, later, rfl, ht, h⟩
    · obtain ⟨-, heard⟩ := turnHeard_of_follows ht
      generalize reads course = read, times course = time at ha heard
      cases heard with
      | crashed hp now => cases ha
    · obtain ⟨-, heard⟩ := turnHeard_of_follows ht
      rw [reads_append] at ha
      rw [times_append]
      generalize hr : reads first = read, htime : times first = time at ha heard ⊢
      cases heard with
      | taken hp =>
        obtain ⟨rfl, -⟩ := Follows.of_done h
        cases ha with
        | late hnone => cases hp.symm.trans hnone
      | late hp now =>
        obtain ⟨rfl, -⟩ := Follows.of_done h
        exact deadline_le_of_turn ht hr htime
      | failed hp now error =>
        obtain ⟨rfl, -⟩ := Follows.of_done h
        cases ha
      | bytes hp now piece =>
        rw [List.singleton_append, List.getLastD_cons]
        cases ha with
        | bytes _ ha => exact ih h ha now

end Wait

/-- A read that fails comes last, so that no bytes are lost for it. -/
theorem Awaits.received_takeWhile {π : Type} {wanted : Packet → Option π} {budget : Nat}
    {r : PacketReader} {reads : List ReadAnswer} {e : Ending (Waited π × PacketReader)}
    (h : Awaits wanted budget r reads e) :
    received (reads.takeWhile (·.error?.isNone)) = received reads := by
  induction h with
  | @bytes _ _ _ piece reads _ h ih => exact congrArg (piece ++ ·) ih
  | _ => rfl

/-! ## Exchanges -/

namespace PacketReader

variable {budget line : Nat} {timeout : Duration} {r : PacketReader} {course : List Exchange}
  {command : Command} {payload packet : Bytes} {e : Ending (Except LinkError Bytes × PacketReader)}

/-- The deadline of the wait in a course whose first question for the time begins it. -/
def deadlineOf (timeout : Duration) (course : List Exchange) : Instant :=
  Instant.deadlineAfter ((times course).headD 0) timeout

/-- An exchange is a write that fails, or one after which the reply is awaited from the time that is
told first. -/
theorem course_of_exchange (hp : Request.encode ⟨command, payload⟩ = .ok packet)
    (h : Follows (r.exchange budget line command payload timeout) course e) :
    (∃ error, course = [⟨.write line packet, .error error⟩]) ∨
    ∃ started rest, course = ⟨.write line packet, .ok ()⟩ :: ⟨.now, started⟩ :: rest ∧
      Follows (loop ((replyWait command started).turn line (Instant.deadlineAfter started timeout))
        budget r) rest e := by
  unfold exchange at h
  rw [hp] at h
  obtain ⟨written, rest, rfl, hw⟩ := Follows.of_ask h
  cases written with
  | error error =>
    obtain ⟨rfl, -⟩ := Follows.of_done hw
    exact .inl ⟨error, rfl⟩
  | ok _ =>
    obtain ⟨started, rest, rfl, hl⟩ := Follows.of_ask hw
    change Follows (loop (replyTurn line command started _) budget r) rest e at hl
    rw [replyTurn_eq] at hl
    exact .inr ⟨started, rest, rfl, hl⟩

theorem inTime_of_exchange (hp : Request.encode ⟨command, payload⟩ = .ok packet)
    (h : Follows (r.exchange budget line command payload timeout) course e) (clock : Instant) :
    ∀ x ∈ clocked clock course, InTime (deadlineOf timeout course) x := by
  rcases course_of_exchange hp h with ⟨error, rfl⟩ | ⟨started, rest, rfl, hl⟩
  · exact inTime_of_reads rfl
  · exact List.forall_mem_cons.2 ⟨nofun, List.forall_mem_cons.2 ⟨nofun,
      Wait.inTime_of_follows hl started⟩⟩

theorem deadline_le_of_exchange {r' : PacketReader}
    (hp : Request.encode ⟨command, payload⟩ = .ok packet)
    (h : Follows (r.exchange budget line command payload timeout) course e)
    (hw : writes course = [.ok ()])
    (ha : Awaits Packet.reply? budget r (reads course) (.ok (.late, r'))) :
    deadlineOf timeout course ≤ (times course).getLastD 0 := by
  rcases course_of_exchange hp h with ⟨error, rfl⟩ | ⟨started, rest, rfl, hl⟩
  · cases hw
  · show Instant.deadlineAfter started timeout ≤ (started :: times rest).getLastD 0
    rw [List.getLastD_cons]
    exact Wait.deadline_le_of_follows hl ha started

/-- A wait for a frame without any time reads nothing, under a clock that does not run backwards. -/
theorem reads_of_nextFrame_zero
    {e : Ending (Except TransportError (Option (FrameHeader × Bytes)) × PacketReader)}
    (h : Follows (r.nextFrame budget line 0) course e) (ht : (times course).Pairwise (· ≤ ·)) :
    reads course = [] := by
  obtain ⟨now, rest, rfl, hl⟩ := Follows.of_ask h
  change Follows (loop (frameTurn line (Instant.deadlineAfter now 0)) budget r) rest e at hl
  rw [frameTurn_eq, show Instant.deadlineAfter now 0 = now from rfl] at hl
  have hrest : reads rest = [] := reads_of_inTime (Wait.inTime_of_follows hl now)
    (Nat.le_refl now) (List.pairwise_cons.1 ht).1
  exact hrest

end PacketReader

end RadarHost
