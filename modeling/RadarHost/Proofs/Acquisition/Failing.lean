import RadarHost.Proofs.Acquisition.Accounts
import RadarHost.Proofs.Bench.Delivery

/-!
# A producer whose line fails in the end

A line that gives no more than some bytes in some reads, and then fails, ends the run of a producer
that nobody asks to stop (`Acquisition.ends_produce_failing`). Each turn either reads the line or
takes a packet off what the reader holds, so the reads and bytes that are left bound the turns:
`Acquisition.ends_turn_failing` makes their number smaller.
-/

namespace RadarHost

open Dialogue

/-- What a producer asks for besides reading, while its line has not failed. -/
def Action.Produces : Action → Prop
  | .now | .report _ | .offer _ | .tally _ | .stopRequested => True
  | _ => False

/-- A line fails in the end. In a state of which `At n rest t` is true the time is `t`, and the line
gives pieces of the bytes `rest` in the course of no more than `n` reads, which take any time, and
then fails. Nothing but reads takes time, and nobody asks to stop. -/
structure Fails {σ : Type} (answer : Surroundings σ) (line : Nat)
    (At : (reads : Nat) → (rest : Bytes) → Instant → σ → Prop) : Prop where
  now : ∀ {n rest t s}, At n rest t s → (answer .now s).1 = t
  unasked : ∀ {n rest t s}, At n rest t s → (answer .stopRequested s).1 = false
  keep : ∀ {n rest t s} (action : Action), action.Produces → At n rest t s →
    At n rest t (answer action s).2
  read : ∀ {n rest t s} (timeout : Duration), At n rest t s →
    (∃ error, (answer (.read line PacketReader.readChunk timeout) s).1 = .failed error) ∨
      ∃ m piece left elapsed, m < n ∧ rest = piece ++ left ∧
        (answer (.read line PacketReader.readChunk timeout) s).1 = .bytes piece ∧
        At m left (t + elapsed) (answer (.read line PacketReader.readChunk timeout) s).2

variable {α π σ : Type} {answer : Surroundings σ} {line : Nat}
  {At : Nat → Bytes → Instant → σ → Prop}

/-- Others who share the queue do not change what the line does. -/
theorem Fails.beside (hf : Fails answer line At) (others : Others σ) :
    Fails (beside answer others) line fun n rest t w => At n rest t w.1 where
  now h := hf.now h
  unasked h := hf.unasked h
  keep action ha h := hf.keep action ha h
  read timeout h := hf.read timeout h

theorem Fails.reportAll (hf : Fails answer line At) (events : List Event) {n : Nat} {rest : Bytes}
    {t : Instant} {s : σ} (h : At n rest t s) :
    Ends answer (fun _ => At n rest t) (Dialogue.reportAll events) s :=
  Ends.reportAll (fun _ event => hf.keep (.report event) trivial) events h

/-! ## Waits -/

namespace PacketReader

theorem length_take_le (wanted : Packet → Option π) (r : PacketReader) :
    (r.take wanted).reader.bytes.length ≤ r.bytes.length := by
  obtain ⟨packets, took, -⟩ := Packet.took_takeUntil wanted r.limit r.bytes
  rw [bytes_take]
  exact took.suffix.length_le

theorem length_take_lt {wanted : Packet → Option π} {r : PacketReader} {p : π}
    (h : (r.take wanted).packet = some p) :
    (r.take wanted).reader.bytes.length < r.bytes.length := by
  rw [bytes_take]
  rw [take_packet] at h
  exact Packet.length_lt_of_wanted (Prod.ext h rfl)

end PacketReader

namespace Wait

variable {w : Wait π α} {deadline : Instant} {k : Nat}

/-- How a wait ends: the line has failed, or fewer than `k` reads and bytes are left. -/
inductive Lessened (w : Wait π α) (At : Nat → Bytes → Instant → σ → Prop) (k : Nat) :
    α × PacketReader → σ → Prop
  | taken {n : Nat} {rest : Bytes} {t : Instant} {s : σ} {p : π} {r : PacketReader}
    (there : At n rest t s) (less : n + (r.bytes.length + rest.length) < k) :
    Lessened w At k (w.finish p, r) s
  | late {n : Nat} {rest : Bytes} {t : Instant} {s : σ} {r : PacketReader}
    (there : At n rest t s) (less : n + (r.bytes.length + rest.length) < k) :
    Lessened w At k (w.late t, r) s
  | failed (error : TransportError) (r : PacketReader) (s : σ) :
    Lessened w At k (w.failed error, r) s

theorem ends_turn_failing (hf : Fails answer line At) {n : Nat} {r : PacketReader} {s : σ}
    (h : ∃ rest t, At n rest t s ∧ n + (r.bytes.length + rest.length) ≤ k ∧
      (deadline ≤ t → n + (r.bytes.length + rest.length) < k)) :
    Ends answer
      (Turned
        (fun r s => ∃ m < n, ∃ rest t, At m rest t s ∧ m + (r.bytes.length + rest.length) ≤ k ∧
          (deadline ≤ t → m + (r.bytes.length + rest.length) < k))
        (w.Lessened At k))
      (w.turn line deadline r) s := by
  obtain ⟨rest, t, there, hk, hlate⟩ := h
  refine (hf.reportAll _ there).bind fun _ s there => ?_
  have hle := r.length_take_le w.wanted
  cases hp : (r.take w.wanted).packet with
  | some p =>
    have hlt := PacketReader.length_take_lt hp
    exact Ends.done (.taken there (by omega))
  | none =>
    have hnow := hf.now there
    replace there := hf.keep .now trivial there
    refine Ends.ask ?_
    rw [hnow]
    show Ends answer _ (if deadline ≤ t then _ else _) _
    split
    · rename_i hover
      have hlt := hlate hover
      exact Ends.done (.late there (by omega))
    · rcases hf.read (deadline - t) there with
        ⟨error, ha⟩ | ⟨m, piece, left, elapsed, hm, rfl, ha, there⟩
      · refine Ends.ask ?_
        rw [ha]
        exact Ends.done (.failed error _ _)
      · refine Ends.ask ?_
        rw [ha]
        have hless :
            m + (((r.take w.wanted).reader.append piece).bytes.length + left.length) < k := by
          rw [List.length_append] at hk
          rw [PacketReader.bytes_append, List.length_append]
          omega
        exact Ends.done ⟨m, hm, left, _, there, hless.le, fun _ => hless⟩

/-- A wait on a line that fails in the end does come to its end. -/
theorem ends_failing (hf : Fails answer line At) {budget n : Nat} {rest : Bytes} {t : Instant}
    {r : PacketReader} {s : σ} (ht : t < deadline) (hb : n < budget) (there : At n rest t s) :
    Ends answer (w.Lessened At (n + (r.bytes.length + rest.length)))
      (loop (w.turn line deadline) budget r) s :=
  Ends.loop (fun _ _ _ => ends_turn_failing hf)
    ⟨rest, t, there, Nat.le_refl _, fun h => absurd h (Nat.not_le_of_lt ht)⟩ hb

end Wait

namespace Session

/-- What a call leaves: the line has failed, or fewer than `k` reads and bytes are left. -/
inductive Lessened (line : Nat) (At : Nat → Bytes → Instant → σ → Prop) (k : Nat) :
    Except LinkError (Option Frame) × Session → σ → Prop
  | goesOn {result : Except LinkError (Option Frame)} {s : Session} {world : σ} {n : Nat}
    {rest : Bytes} {t : Instant} (herror : lineError? result = none) (hl : s.line = some line)
    (there : At n rest t world) (less : n + (s.reader.bytes.length + rest.length) < k) :
    Lessened line At k (result, s) world
  | failed (error : TransportError) (s : Session) (world : σ) :
    Lessened line At k (.error (.transport error), s) world

theorem ends_readFrame_failing (hf : Fails answer line At) {budget n : Nat} {timeout : Duration}
    {rest : Bytes} {t : Instant} {s : Session} {world : σ} (ht : 0 < timeout)
    (hl : s.line = some line) (hb : n < budget) (there : At n rest t world) :
    Ends answer (Lessened line At (n + (s.reader.bytes.length + rest.length)))
      (s.readFrame budget timeout) world := by
  obtain ⟨_, _, _, _, _, reader, _, _⟩ := s
  cases hl
  have hwait : Ends answer
      (PacketReader.frameWait.Lessened At (n + (reader.bytes.length + rest.length)))
      (reader.nextFrame budget line timeout) world := by
    refine Ends.ask ?_
    rw [hf.now there]
    show Ends answer _ (loop (PacketReader.frameTurn line _) budget _) _
    rw [PacketReader.frameTurn_eq]
    exact Wait.ends_failing hf (Instant.lt_deadlineAfter ht t) hb (hf.keep .now trivial there)
  refine hwait.bind ?_
  rintro _ world (@⟨n, rest, t, _, ⟨header, packet⟩, reader, there, less⟩ | ⟨there, less⟩ | ⟨error⟩)
  · dsimp only [PacketReader.frameWait]
    cases hp : header.payload packet with
    | error e => exact Ends.done (.goesOn rfl rfl there less)
    | ok payload =>
      refine (hf.reportAll _ there).bind fun _ world there => ?_
      exact Ends.done (.goesOn rfl rfl there less)
  · exact Ends.done (.goesOn rfl rfl there less)
  · exact Ends.done (.failed error _ _)

end Session

namespace Acquisition

variable {budget k : Nat} {timeout : Duration}

/-- An open session with `k` reads and bytes left on its line, fewer than `budget`. -/
structure Left (line budget : Nat) (At : Nat → Bytes → Instant → σ → Prop) (k : Nat) (s : Session)
    (world : σ) : Prop where
  line_eq : s.line = some line
  few : k < budget
  left : ∃ n rest t, At n rest t world ∧ n + (s.reader.bytes.length + rest.length) = k

/-- Unless the line has failed, the producer asks for nothing in its settlement that it does not ask
for while it goes on. -/
theorem asks_settle {result : Except LinkError (Option Frame)} (s : Session)
    (herror : Session.lineError? result = none) : (settle (result, s)).Asks Action.Produces := by
  match result with
  | .ok (some frame) =>
    refine Asks.bind (d := handOver frame) ⟨trivial, fun took => ?_⟩ fun _ => trivial
    cases took
    · exact ⟨trivial, fun _ => ⟨trivial, fun _ => trivial⟩⟩
    · exact ⟨trivial, fun _ => trivial⟩
  | .ok none => trivial
  | .error (.packet e) => exact ⟨trivial, fun _ => ⟨trivial, fun _ => trivial⟩⟩
  | .error (.transport e) => cases herror

/-- What the actions of a producer keep is kept while it accounts for what its call gave, unless the
line has failed. -/
theorem ends_settle {kept : σ → Prop}
    (keep : ∀ action world, action.Produces → kept world → kept (answer action world).2)
    {result : Except LinkError (Option Frame)} {s : Session} {world : σ}
    (herror : Session.lineError? result = none) (h : kept world) :
    Ends answer (fun x world => x = .inl s ∧ kept world) (settle (result, s)) world :=
  have hends := (handsOver_of_settle herror (follows_course answer (settle (result, s)) world)).1
  ⟨.inl s, _, Prod.ext hends rfl, rfl, (asks_settle s herror).run keep h⟩

theorem ends_settle_failing (hf : Fails answer line At) (hb : k < budget)
    {r : Except LinkError (Option Frame) × Session} {world : σ}
    (h : Session.Lessened line At k r world) :
    Ends answer
      (Turned (fun s world => ∃ m < k, Left line budget At m s world) fun s _ => s.line = none)
      (settle r) world := by
  cases h with
  | @goesOn result s _ n rest t herror hl there less =>
    obtain ⟨_, world, hrun, rfl, there⟩ :=
      ends_settle (s := s) (fun action _ ha h => hf.keep action ha h) herror there
    exact ⟨_, world, hrun, _, less, hl, less.trans hb, n, rest, t, there, rfl⟩
  | failed error s world =>
    refine Ends.ask ?_
    have hclose : ∀ world, Ends answer (fun s' _ => s'.line = none) s.close world := by
      intro world
      unfold Session.close
      cases hl : s.line with
      | none => exact Ends.done hl
      | some line => exact Ends.ask (Ends.ask (Ends.done rfl))
    exact (hclose _).bind fun s' world hs' => Ends.ask (Ends.done hs')

theorem ends_turn_failing (hf : Fails answer line At) (ht : 0 < timeout) {s : Session} {world : σ}
    (h : Left line budget At k s world) :
    Ends answer
      (Turned (fun s world => ∃ m < k, Left line budget At m s world) fun s _ => s.line = none)
      (turn budget timeout s) world := by
  obtain ⟨hl, hb, n, rest, t, there, rfl⟩ := h
  rw [turn_eq]
  refine Ends.ask ?_
  rw [hf.unasked there]
  have hcall := Session.ends_readFrame_failing hf ht hl (show n < budget by omega)
    (hf.keep .stopRequested trivial there)
  exact (hcall.protect s.discard).bind fun r world h => ends_settle_failing hf hb h

/-- A producer whose line fails in the end comes to its end. -/
theorem ends_produce_failing (hf : Fails answer line At) (ht : 0 < timeout) {n : Nat} {rest : Bytes}
    {t : Instant} {s : Session} {world : σ} (hl : s.line = some line) (there : At n rest t world)
    (hb : n + (s.reader.bytes.length + rest.length) < budget) :
    Ends answer (fun s' _ => s'.line = none) (produce budget timeout s) world :=
  Ends.loop (fun _ _ _ => ends_turn_failing hf ht) ⟨hl, hb, n, rest, t, there, rfl⟩ hb

end Acquisition

/-! ## Scripts -/

namespace Bench

/-- A line with a script that is all data up to a read that fails. -/
structure AtFailing (line : Nat) (n : Nat) (rest : Bytes) (t : Instant) (b : Bench) : Prop where
  clock : b.clock = t
  unasked : b.stopRequested = false
  waits : ∃ identifier datas reason after, b.openEnd? line =
      some (identifier, .script (datas.map .data ++ .io reason :: after)) ∧
    datas.flatten = rest ∧ Script.dataReads datas ≤ n

theorem fails_script (line : Nat) : Fails Bench.answer line (AtFailing line) where
  now h := h.clock
  unasked h := h.unasked
  keep action ha h := by
    cases action with
    | now | report | tally | stopRequested | offer => exact ⟨h.clock, h.unasked, h.waits⟩
    | _ => exact ha.elim
  read {n rest t b} timeout h := by
    obtain ⟨hclock, hunasked, identifier, datas, reason, after, ho, rfl, hn⟩ := h
    show (∃ error, (b.read line PacketReader.readChunk timeout).1 = _) ∨
      ∃ m piece left elapsed, _ ∧ _ ∧ (b.read line PacketReader.readChunk timeout).1 = _ ∧
        AtFailing line m left _ (b.read line PacketReader.readChunk timeout).2
    cases datas with
    | nil =>
      unfold Bench.read
      rw [ho]
      exact .inl ⟨.io reason, rfl⟩
    | cons bytes datas =>
      obtain ⟨left, hread, hflat, hsum⟩ := read_data ho timeout
      rw [hread]
      exact .inr ⟨Script.dataReads left, _, left.flatten, 0, by omega, hflat.symm, rfl, hclock,
        hunasked, identifier, left, reason, after, openEnd?_setFarEnd ho _, rfl, Nat.le_refl _⟩

end Bench

end RadarHost
