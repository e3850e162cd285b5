import RadarHost.Proofs.Acquisition.Failing
import RadarHost.Proofs.Link.Prompt
import RadarHost.Proofs.Link.Timing

/-!
# Frames that can be had without waiting

A frame packet that a line gives before any time has passed is reported by a call that is given some
time for it, however little, and however many reads it takes (`Session.ends_readFrame_ready`). A
producer whose calls have time accounts for one such packet in each of its turns
(`Acquisition.turn_ready`), and so for all of them (`Acquisition.accounts_progress`).

A call that is given no time at all only looks at what its reader holds
(`Session.ends_readFrame_over`). A producer that makes such calls never reads its line
(`Acquisition.reads_loop_zero`), so that it comes no further than its reader did before it, and
goes on for as many turns as it may make, even if the line has failed
(`Acquisition.Undisturbed.exhausted_produce_zero`). `ready_frame_missed_iff` puts the two together.
-/

namespace RadarHost

open Dialogue

variable {σ : Type} {answer : Surroundings σ} {line : Nat} {At : Nat → Bytes → Instant → σ → Prop}

/-! ## Calls -/

namespace Session

variable {s : Session} {world : σ} {budget n : Nat} {timeout : Duration} {t : Instant}
  {rest last : Bytes} {packet : FrameHeader × Bytes}

/-- What a call makes of a frame packet that is ready: it reports the packet, and what follows the
packet is held or still ready. -/
structure Reported (line : Nat) (At : Nat → Bytes → Instant → σ → Prop) (n : Nat) (t : Instant)
    (limit : Nat) (packet : FrameHeader × Bytes) (last : Bytes)
    (x : Except LinkError (Option Frame) × Session) (world : σ) : Prop where
  result_eq : x.1 = (report packet).map some
  line_eq : x.2.line = some line
  limit_eq : x.2.reader.limit = limit
  left : ∃ m ≤ n, ∃ left, x.2.reader.bytes ++ left = last ∧ At m left t world

/-- A frame packet that is ready is reported by a call that has time; by any call if the reader
holds it. -/
theorem ends_readFrame_ready (hr : Ready answer line At) (hl : s.line = some line)
    (hnext : (Packet.takeUntil Packet.frame? s.reader.limit (s.reader.bytes ++ rest)).taken =
      (some packet, last))
    (htime : 0 < timeout ∨ (s.reader.take Packet.frame?).packet ≠ none) (hb : n < budget)
    (there : At n rest t world) :
    Ends answer (Reported line At n t s.reader.limit packet last) (s.readFrame budget timeout)
      world := by
  obtain ⟨header, packet⟩ := packet
  have hlength : packet.length = header.packetLen :=
    Packet.length_of_mem_frames (Packet.frames_of_some hnext ▸ List.mem_cons_self ..)
  have hreport := given_eq_report hlength
  obtain ⟨_, _, _, _, _, reader, _, _⟩ := s
  cases hl
  have hwait : Ends answer
      (PacketReader.frameWait.Found (fun rest t s => ∃ m ≤ n, At m rest t s) t reader.limit
        (header, packet) last)
      (reader.nextFrame budget line timeout) world := by
    obtain ⟨hnow, there⟩ := hr.now there
    refine Ends.ask ?_
    rw [hnow]
    show Ends answer _ (loop (PacketReader.frameTurn line _) budget _) _
    rw [PacketReader.frameTurn_eq]
    exact Wait.ends_ready hr hnext (htime.imp_left (Instant.lt_deadlineAfter · t)) hb there
  refine hwait.bind ?_
  rintro ⟨_, reader'⟩ world ⟨left, rfl, hlimit, hbytes, m, hm, there⟩
  dsimp only [PacketReader.frameWait]
  unfold given at hreport
  cases hp : header.payload packet with
  | error e =>
    rw [hp] at hreport
    exact Ends.done ⟨hreport ▸ rfl, rfl, hlimit, m, hm, left, hbytes, there⟩
  | ok payload =>
    rw [hp] at hreport
    refine (Ends.reportAll (fun _ event => hr.report event) _ there).bind fun _ world there => ?_
    exact Ends.done ⟨hreport ▸ rfl, rfl, hlimit, m, hm, left, hbytes, there⟩

/-- A call without any time does not notice whether its line gives anything or fails: it comes to
what its reader holds, and to nothing if that is no whole frame packet. -/
theorem ends_readFrame_over {kept : σ → Prop} (hs : Stands answer t kept) (hl : s.line = some line)
    (hb : 0 < budget) (h : kept world) :
    Ends answer
      (fun x world => ((s.reader.take Packet.frame?).packet = none → x.1 = .ok none) ∧
        lineError? x.1 = none ∧ x.2.line = some line ∧ kept world)
      (s.readFrame budget 0) world := by
  obtain ⟨_, _, _, _, _, reader, _, _⟩ := s
  cases hl
  obtain ⟨budget, rfl⟩ := Nat.exists_eq_succ_of_ne_zero hb.ne'
  have hwait : Ends answer
      (fun x world => x.1 = .ok (reader.take Packet.frame?).packet ∧ kept world)
      (reader.nextFrame (budget + 1) line 0) world := by
    obtain ⟨hnow, h⟩ := hs.now h
    refine Ends.ask ?_
    rw [hnow]
    show Ends answer _ (loop (PacketReader.frameTurn line _) _ _) _
    rw [PacketReader.frameTurn_eq]
    refine (Wait.ends_turn_over (w := PacketReader.frameWait) hs (Nat.le_of_eq (Nat.add_zero t))
      h).bind ?_
    rintro _ world ⟨rfl, h⟩
    refine Ends.done ⟨?_, h⟩
    show Option.elim (reader.take Packet.frame?).packet _ _ = _
    cases (reader.take Packet.frame?).packet <;> rfl
  refine hwait.bind ?_
  rintro ⟨_, reader'⟩ world ⟨rfl, h⟩
  cases hp : (reader.take Packet.frame?).packet with
  | none => exact Ends.done ⟨fun _ => rfl, rfl, rfl, h⟩
  | some found =>
    obtain ⟨header, packet⟩ := found
    dsimp only
    cases header.payload packet with
    | error e => exact Ends.done ⟨nofun, rfl, rfl, h⟩
    | ok payload =>
      refine (Ends.reportAll (fun _ event => hs.report event) _ h).bind fun _ world h => ?_
      exact Ends.done ⟨nofun, rfl, rfl, h⟩

theorem reported?_report (packet : FrameHeader × Bytes) :
    reported? ((report packet).map some) = some (report packet) := by
  unfold report
  dsimp only
  split <;> rfl

/-! ### Calls without time -/

/-- A call without any time does not read its line, under a clock that does not run backwards. -/
theorem reads_readFrame_zero {course : List Exchange}
    {e : Ending (Except LinkError (Option Frame) × Session)}
    (h : Follows (s.readFrame budget 0) course e) (ht : (times course).Pairwise (· ≤ ·)) :
    reads course = [] := by
  unfold readFrame at h
  split at h
  · obtain ⟨rfl, -⟩ := Follows.of_done h
    rfl
  · rename_i line _
    rcases Follows.of_bind (d := s.reader.nextFrame budget line 0) h with
      ⟨_, hwait, -⟩ | ⟨⟨found, reader⟩, first, later, rfl, hwait, hlater⟩
    · exact PacketReader.reads_of_nextFrame_zero hwait ht
    · rw [times_append] at ht
      rw [reads_append, PacketReader.reads_of_nextFrame_zero hwait (List.pairwise_append.1 ht).1]
      refine reads_of_asks ?_ hlater
      dsimp only
      split
      · trivial
      · trivial
      · split
        · trivial
        · exact (Asks.reportAll (fun _ => rfl) _).bind fun _ => trivial

end Session

/-! ## Producers -/

/-- A loop that none of its turns ends goes on for as many of them as it may make. -/
theorem Dialogue.exhausted_loop {α ρ : Type} {turn : ρ → Dialogue (ρ ⊕ α)} {inv : ρ → σ → Prop}
    (hturn : ∀ r s, inv r s → Ends answer (Turned inv fun _ _ => False) (turn r) s)
    (budget : Nat) {r : ρ} {s : σ} (h : inv r s) :
    ∃ r' s', (loop turn budget r).run answer s = (.error .exhausted, s') ∧ inv r' s' := by
  induction budget generalizing r s with
  | zero => exact ⟨r, s, rfl, h⟩
  | succ budget ih =>
    obtain ⟨r₁ | a, s₁, hrun, h₁⟩ := hturn r s h
    · obtain ⟨r', s', hloop, h'⟩ := ih h₁
      exact ⟨r', s', (run_bind hrun).1.trans hloop, h'⟩
    · exact h₁.elim

/-- A line gives some bytes without delay to a producer that is not disturbed: what it asks for
besides reading leaves the line as it is, and nobody asks it to stop. -/
structure Streams {σ : Type} (answer : Surroundings σ) (line : Nat)
    (At : (reads : Nat) → (rest : Bytes) → Instant → σ → Prop) : Prop
    extends Ready answer line At where
  unasked : ∀ {n rest t s}, At n rest t s → (answer .stopRequested s).1 = false
  keep : ∀ {n rest t s} (action : Action), action.Produces → At n rest t s →
    At n rest t (answer action s).2

namespace Acquisition

variable {s : Session} {world : σ} {budget n turns : Nat} {timeout : Duration} {t : Instant}
  {rest last : Bytes} {packet : FrameHeader × Bytes}

/-- A turn that is not asked to stop and whose line does not fail accounts for what its call
reports, and goes on. -/
theorem turn_of_call (hl : s.line = some line) (hasked : (answer .stopRequested world).1 = false)
    {result : Except LinkError (Option Frame)} {s' : Session} {mid : σ}
    (hcall : (s.readFrame budget timeout).run answer (answer .stopRequested world).2 =
      (.ok (result, s'), mid))
    (herror : Session.lineError? result = none) :
    (turn budget timeout s).run answer world = (settle (result, s')).run answer mid ∧
      Accounts (Session.reported? result).toList ((turn budget timeout s).course answer world) := by
  obtain ⟨hprotected, hheard⟩ := run_protect s.discard hcall
  obtain ⟨hrun, hcourse⟩ := run_bind (f := settle) hprotected
  have hfollows := follows_course answer (s.readFrame budget timeout)
    (answer .stopRequested world).2
  rw [hcall] at hfollows
  obtain ⟨packets, hcalled⟩ := Session.tookCall_of_follows hl hfollows
  have hover := (handsOver_of_settle herror (follows_course answer (settle (result, s')) mid)).2
  have hproduced := hover.produced hcalled (hfollows.asks (s.asks_readFrame budget timeout))
  rw [turn_eq]
  constructor
  · show (if (answer .stopRequested world).1 = true then _ else _ : Dialogue _).run answer _ = _
    rw [hasked]
    exact hrun
  · rw [course, hasked]
    show Accounts _ (⟨.stopRequested, false⟩ :: ((protect _ _).bind settle).course answer _)
    rw [hcourse, hheard, ← hcalled.reports_eq]
    exact hproduced.accounts

/-- A turn accounts for the next frame packet that is ready. -/
theorem turn_ready (hs : Streams answer line At) (hl : s.line = some line)
    (hnext : (Packet.takeUntil Packet.frame? s.reader.limit (s.reader.bytes ++ rest)).taken =
      (some packet, last))
    (ht : 0 < timeout) (hb : n < budget) (there : At n rest t world) :
    ∃ s' world', (turn budget timeout s).run answer world = (.ok (.inl s'), world') ∧
      Accounts [Session.report packet] ((turn budget timeout s).course answer world) ∧
      s'.line = some line ∧ s'.reader.limit = s.reader.limit ∧
      ∃ m ≤ n, ∃ left, s'.reader.bytes ++ left = last ∧ At m left t world' := by
  have hasked := hs.unasked there
  obtain ⟨⟨result, s'⟩, mid, hcall, hresult, hline, hlimit, m, hm, left, hbytes, there⟩ :=
    Session.ends_readFrame_ready hs.toReady hl hnext (.inl ht) hb
      (hs.keep .stopRequested trivial there)
  subst hresult
  have hreported := Session.reported?_report packet
  have herror := Session.lineError?_of_reported? hreported
  obtain ⟨hrun, haccounts⟩ := turn_of_call hl hasked hcall herror
  obtain ⟨_, world', hsettle, rfl, there⟩ :=
    ends_settle (fun action _ ha h => hs.keep action ha h) herror there
  rw [hreported] at haccounts
  exact ⟨s', world', hrun.trans hsettle, haccounts, hline, hlimit, m, hm, left, hbytes, there⟩

/-- At some moment of its run, while no time has passed, a producer has accounted for all frame
packets that were ready. -/
theorem accounts_progress (hs : Streams answer line At) (ht : 0 < timeout) :
    ∀ {turns n : Nat} {rest : Bytes} {s : Session} {world : σ}, s.line = some line →
      At n rest t world → n < budget →
      (Session.due s.reader.limit (s.reader.bytes ++ rest)).length ≤ turns →
      ∃ questions,
        Accounts (Session.due s.reader.limit (s.reader.bytes ++ rest))
          ((loop (turn budget timeout) turns s).progressCourse answer questions world) ∧
        ∃ m left, At m left t ((loop (turn budget timeout) turns s).progress answer questions
          world).2 := by
  intro turns
  induction turns with
  | zero =>
    intro n rest s world _ there _ hdue
    rw [List.length_eq_zero_iff.1 (Nat.le_zero.1 hdue)]
    exact ⟨0, .of_silent rfl rfl, n, rest, there⟩
  | succ turns ih =>
    intro n rest s world hl there hb hdue
    cases hnext : (Packet.takeUntil Packet.frame? s.reader.limit
        (s.reader.bytes ++ rest)).packet with
    | none =>
      rw [Session.due, Packet.frames_of_none hnext]
      exact ⟨0, .of_silent rfl rfl, n, rest, there⟩
    | some packet =>
      have hframes := Packet.frames_of_some (Prod.ext hnext rfl)
      rw [Session.due, hframes, List.map_cons] at hdue ⊢
      obtain ⟨s', world', hturn, haccounts, hline, hlimit, m, hm, left, hbytes, there⟩ :=
        turn_ready hs hl (Prod.ext hnext rfl) ht hb there
      rw [← hbytes, ← hlimit] at hdue ⊢
      obtain ⟨questions, hlater, hstill⟩ :=
        ih hline there (hm.trans_lt hb) (Nat.le_of_succ_le_succ hdue)
      obtain ⟨hprogress, hcourse⟩ := progress_loop hturn turns questions
      refine ⟨((turn budget timeout s).course answer world).length + questions, ?_⟩
      rw [hprogress, hcourse]
      exact ⟨haccounts.append hlater, hstill⟩

/-! ### Producers without time -/

theorem reads_settle {r : Except LinkError (Option Frame) × Session} {course : List Exchange}
    {e : Ending (Session ⊕ Session)} (h : Follows (settle r) course e) : reads course = [] := by
  refine reads_of_asks ?_ h
  unfold settle
  split
  · refine Asks.bind (d := handOver _) ⟨rfl, fun took => ?_⟩ fun _ => trivial
    cases took
    · exact ⟨rfl, fun _ => ⟨rfl, fun _ => trivial⟩⟩
    · exact ⟨rfl, fun _ => trivial⟩
  · trivial
  · exact ⟨rfl, fun _ => ⟨rfl, fun _ => trivial⟩⟩
  · refine ⟨rfl, fun _ => Asks.bind (d := Session.close _) ?_ fun _ => ⟨rfl, fun _ => trivial⟩⟩
    unfold Session.close
    split
    · trivial
    · exact ⟨rfl, fun _ => ⟨rfl, fun _ => trivial⟩⟩

theorem reads_turn_zero {course : List Exchange} {e : Ending (Session ⊕ Session)}
    (h : Follows (turn budget 0 s) course e) (ht : (times course).Pairwise (· ≤ ·)) :
    reads course = [] := by
  rw [turn_eq] at h
  obtain ⟨asked, rest, rfl, hrest⟩ := Follows.of_ask h
  change (times rest).Pairwise (· ≤ ·) at ht
  show reads rest = []
  cases asked with
  | true =>
    obtain ⟨rfl, -⟩ := Follows.of_done hrest
    rfl
  | false =>
    rcases Follows.of_bind (d := protect s.discard (s.readFrame budget 0)) hrest with
      ⟨why, hread, rfl⟩ | ⟨r, heard, later, rfl, hread, hsettle⟩
    · rcases Session.of_protect_discard hread with ⟨_, _, he⟩ | ⟨_, heard, rfl, hcall, -⟩
      · cases he
      · rw [times_append] at ht
        rw [reads_append, s.reads_closing,
          Session.reads_readFrame_zero hcall (List.pairwise_append.1 ht).1]
        rfl
    · rcases Session.of_protect_discard hread with ⟨_, hcall, -⟩ | ⟨_, _, _, _, he⟩
      · rw [times_append] at ht
        rw [reads_append, reads_settle hsettle,
          Session.reads_readFrame_zero hcall (List.pairwise_append.1 ht).1]
        rfl
      · cases he

/-- A producer whose calls have no time never reads its line, under a clock that does not run
backwards. -/
theorem reads_loop_zero {course : List Exchange} {e : Ending Session}
    (h : Follows (loop (turn budget 0) turns s) course e)
    (ht : (times course).Pairwise (· ≤ ·)) : reads course = [] := by
  induction turns generalizing s course with
  | zero =>
    cases h
    rfl
  | succ turns ih =>
    rcases Follows.of_bind (d := turn budget 0 s) h with
      ⟨why, hturn, rfl⟩ | ⟨x, first, later, rfl, hturn, hrest⟩
    · exact reads_turn_zero hturn ht
    · rw [times_append] at ht
      obtain ⟨hfirst, hlater, -⟩ := List.pairwise_append.1 ht
      rw [reads_append, reads_turn_zero hturn hfirst, List.nil_append]
      cases x with
      | inl s' => exact ih hrest hlater
      | inr s' =>
        obtain ⟨rfl, -⟩ := Follows.of_done hrest
        rfl

/-- What a producer asks for besides reading is no read, and does not stop the queue. -/
theorem silent_of_produces {course : List Exchange} (h : ∀ x ∈ course, x.1.Produces) :
    reads course = [] ∧ ⟨.stopQueue, ()⟩ ∉ course := by
  refine ⟨List.filterMap_eq_nil_iff.2 fun x hx => ?_, fun hstop => h _ hstop⟩
  have hx := h x hx
  obtain ⟨action, answer⟩ := x
  cases action with
  | read => exact hx.elim
  | _ => rfl

/-- As long as a producer does not read, the clock stands at `t`, nobody asks it to stop, and what
is true of its surroundings stays true. -/
structure Undisturbed {σ : Type} (answer : Surroundings σ) (t : Instant) (kept : σ → Prop) :
    Prop where
  now : ∀ {s}, kept s → (answer .now s).1 = t
  unasked : ∀ {s}, kept s → (answer .stopRequested s).1 = false
  keep : ∀ {s} (action : Action), action.Produces → kept s → kept (answer action s).2

namespace Undisturbed

variable {kept : σ → Prop}

theorem stands (hu : Undisturbed answer t kept) : Stands answer t kept :=
  ⟨fun h => ⟨hu.now h, hu.keep .now trivial h⟩, fun event h => hu.keep (.report event) trivial h⟩

theorem of_fails (hf : Fails answer line At) : Undisturbed answer t (At n rest t) :=
  ⟨hf.now, hf.unasked, hf.keep⟩

/-- What a producer asks for may be put on record. -/
theorem watched (hu : Undisturbed answer t kept) :
    Undisturbed (recorded answer) t fun w => kept w.1 ∧ ∀ x ∈ w.2, x.1.Produces where
  now h := hu.now h.1
  unasked h := hu.unasked h.1
  keep action ha h :=
    ⟨hu.keep action ha h.1, List.forall_mem_append.2 ⟨h.2, List.forall_mem_singleton.2 ha⟩⟩

theorem ends_turn_zero (hu : Undisturbed answer t kept) (hb : 0 < budget)
    (h : s.line = some line ∧ kept world) :
    Ends answer (Turned (fun s world => s.line = some line ∧ kept world) fun _ _ => False)
      (turn budget 0 s) world := by
  obtain ⟨hl, h⟩ := h
  rw [turn_eq]
  refine Ends.ask ?_
  rw [hu.unasked h]
  have hcall := Session.ends_readFrame_over hu.stands hl hb (hu.keep .stopRequested trivial h)
  refine (hcall.protect s.discard).bind ?_
  rintro ⟨result, s'⟩ world ⟨-, herror, hline, h⟩
  obtain ⟨_, world', hrun, rfl, h⟩ := ends_settle (fun _ _ ha h => hu.keep _ ha h) herror h
  exact ⟨_, world', hrun, hline, h⟩

/-- A producer whose calls have no time makes as many turns as it may, whatever its line would
give. -/
theorem exhausted_produce_zero (hu : Undisturbed answer t kept) (hl : s.line = some line)
    (h : kept world) (budget : Nat) :
    ∃ world', (produce budget 0 s).run answer world = (.error .exhausted, world') ∧
      kept world' := by
  rcases Nat.eq_zero_or_pos budget with rfl | hb
  · exact ⟨world, rfl, h⟩
  · obtain ⟨_, world', hrun, -, h⟩ :=
      exhausted_loop (fun _ _ h => hu.ends_turn_zero hb h) budget ⟨hl, h⟩
    exact ⟨world', hrun, h⟩

/-- And in none of them does it read its line or stop the queue. -/
theorem idle_of_produce_zero (hu : Undisturbed answer t kept) (hl : s.line = some line)
    (h : kept world) (budget : Nat) :
    ((produce budget 0 s).run answer world).1 = .error .exhausted ∧
      reads ((produce budget 0 s).course answer world) = [] ∧
      ⟨.stopQueue, ()⟩ ∉ (produce budget 0 s).course answer world := by
  obtain ⟨⟨world', record⟩, hrun, -, hrecord⟩ : ∃ w,
      (produce budget 0 s).run (recorded answer) (world, []) = (.error .exhausted, w) ∧
        kept w.1 ∧ ∀ x ∈ w.2, x.1.Produces :=
    hu.watched.exhausted_produce_zero hl ⟨h, List.forall_mem_nil _⟩ budget
  have hending := (run_recorded answer (produce budget 0 s) world []).1
  have hcourse := record_recorded answer (produce budget 0 s) world []
  rw [hrun] at hending hcourse
  exact ⟨hending.symm, silent_of_produces fun x hx => hrecord x (hcourse ▸ hx)⟩

end Undisturbed

end Acquisition

/-! ## Scripts -/

/-- A script that is all data is given without delay. -/
theorem Bench.streams_script (line : Nat) :
    Streams Bench.answer line fun n rest t b =>
      AtScript line n rest t b ∧ b.stopRequested = false where
  now h := ⟨h.1.clock, h⟩
  report _ h := ⟨⟨h.1.clock, h.1.waits⟩, h.2⟩
  unasked h := h.2
  keep action ha h := by
    cases action with
    | now | report | tally | stopRequested | offer => exact ⟨⟨h.1.clock, h.1.waits⟩, h.2⟩
    | _ => exact ha.elim
  read {n rest t b timeout} _ hrest h := by
    obtain ⟨⟨hclock, identifier, datas, ho, rfl, hn⟩, hunasked⟩ := h
    cases datas with
    | nil => exact absurd rfl hrest
    | cons bytes datas =>
      rw [← List.append_nil (List.map _ _)] at ho
      obtain ⟨left, hread, hflat, hsum⟩ := read_data ho timeout
      show ∃ m < n, ∃ piece rest, _ ∧ (b.read line PacketReader.readChunk timeout).1 = _ ∧
        AtScript line m rest t (b.read line PacketReader.readChunk timeout).2 ∧
          (b.read line PacketReader.readChunk timeout).2.stopRequested = false
      rw [hread, List.append_nil]
      exact ⟨_, hsum.trans_le hn, _, left.flatten, hflat.symm, rfl,
        ⟨hclock, identifier, left, openEnd?_setFarEnd ho _, rfl, Nat.le_refl _⟩, hunasked⟩

/-! ## Whoever waits a little -/

/-- A frame that can be had without waiting is reported, as a frame or as damaged, by every call
but one that is given no time and whose reader does not hold it; such a call finds nothing. And a
producer that makes calls of some length accounts for all frames that can be had without waiting,
while one whose calls have no time never reads its line. -/
theorem ready_frame_missed_iff (hs : Streams answer line At) {s : Session} {world : σ}
    {budget n : Nat} {t : Instant} {rest last : Bytes} {packet : FrameHeader × Bytes}
    (hl : s.line = some line) (there : At n rest t world) (hb : n < budget)
    (hnext : (Packet.takeUntil Packet.frame? s.reader.limit (s.reader.bytes ++ rest)).taken =
      (some packet, last))
    (timeout : Duration) :
    (∃ result s' world',
      (s.readFrame budget timeout).run answer world = (.ok (result, s'), world') ∧
      (result = .ok none ↔ timeout = 0 ∧ (s.reader.take Packet.frame?).packet = none) ∧
      (result ≠ .ok none → result = (Session.report packet).map some)) ∧
    let due := Session.due s.reader.limit (s.reader.bytes ++ rest)
    let run := Acquisition.produce budget timeout s
    (timeout ≠ 0 → due.length ≤ budget → ∃ questions,
      Acquisition.Accounts due (run.progressCourse answer questions world) ∧
        ∃ m left, At m left t (run.progress answer questions world).2) ∧
    (timeout = 0 → (times (run.course answer world)).Pairwise (· ≤ ·) →
      reads (run.course answer world) = []) := by
  have hsome : (Session.report packet).map some ≠ .ok none := by
    cases Session.report packet <;> exact nofun
  refine ⟨?_, fun ht hdue => ?_, ?_⟩
  · by_cases hover : timeout = 0 ∧ (s.reader.take Packet.frame?).packet = none
    · obtain ⟨rfl, hnone⟩ := hover
      obtain ⟨⟨_, s'⟩, world', hrun, hnothing, -⟩ :=
        Session.ends_readFrame_over hs.toReady.stands hl (Nat.zero_lt_of_lt hb) there
      obtain rfl := hnothing hnone
      exact ⟨_, s', world', hrun, iff_of_true rfl ⟨rfl, hnone⟩, fun h => absurd rfl h⟩
    · have htime : 0 < timeout ∨ (s.reader.take Packet.frame?).packet ≠ none :=
        (not_and_or.1 hover).imp_left Nat.pos_of_ne_zero
      obtain ⟨⟨_, s'⟩, world', hrun, rfl, -⟩ :=
        Session.ends_readFrame_ready hs.toReady hl hnext htime hb there
      exact ⟨_, s', world', hrun, iff_of_false hsome hover, fun _ => rfl⟩
  · exact Acquisition.accounts_progress hs (Nat.pos_of_ne_zero ht) hl there hb hdue
  · rintro rfl ht
    exact Acquisition.reads_loop_zero (follows_course answer _ world) ht

/-- A frame in two pieces: a call that may wait a nanosecond gives it, and a producer that makes
such calls accounts for it. -/
theorem ready_frame_missed_iff_in_pieces :
    let f : Frame := ⟨0, 0, [7]⟩
    let pieces := [f.packet.take 5, f.packet.drop 5]
    ∃ s' world', (Session.onBench.readFrame 20 1).run Bench.answer (Bench.playing pieces) =
        (.ok (.ok (some f), s'), world') ∧
      ∃ questions, Acquisition.Accounts [.ok f]
        ((Acquisition.produce 20 1 Session.onBench).progressCourse Bench.answer questions
          (Bench.playing pieces)) := by
  intro f pieces
  have hfew : Script.dataReads pieces < 20 := by decide +kernel
  have hnext : (Packet.takeUntil Packet.frame? Session.onBench.reader.limit
      (Session.onBench.reader.bytes ++ pieces.flatten)).taken =
        (some (f.header, f.packet), []) := by
    decide +kernel
  have hdue : Session.due Session.onBench.reader.limit
      (Session.onBench.reader.bytes ++ pieces.flatten) = [.ok f] := by decide +kernel
  have hreport : Session.report (f.header, f.packet) = .ok f := by decide +kernel
  obtain ⟨⟨result, s', world', hrun, hnone, hgiven⟩, hproduce, -⟩ := ready_frame_missed_iff
    (Bench.streams_script 0) (s := Session.onBench) rfl ⟨Bench.atScript_playing pieces, rfl⟩ hfew
    hnext 1
  have hresult : result = .ok (some f) := by
    rw [hgiven fun h => absurd (hnone.1 h).1 Nat.one_ne_zero, hreport]
    rfl
  rw [hdue] at hproduce
  obtain ⟨questions, haccounts, -⟩ := hproduce Nat.one_ne_zero (show 1 ≤ 20 by decide)
  exact ⟨s', world', hresult ▸ hrun, questions, haccounts⟩

/-- A frame that waits in the line as a whole, so that a single read gives it, is found by a call
that may wait a nanosecond. A call that is given no time finds nothing, and a producer that makes
such calls does not read it in any number of turns. -/
theorem ready_frame_missed :
    let f : Frame := ⟨0, 0, [7]⟩
    let bench := Bench.playing [f.packet]
    ((Session.onBench.readFrame 9 1).run Bench.answer bench).1.map Prod.fst = .ok (.ok (some f)) ∧
      ((Session.onBench.readFrame 9 0).run Bench.answer bench).1.map Prod.fst = .ok (.ok none) ∧
      reads ((Acquisition.produce 9 0 Session.onBench).course Bench.answer bench) = [] := by
  decide +kernel

end RadarHost
