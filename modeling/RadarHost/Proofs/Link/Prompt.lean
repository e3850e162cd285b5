import RadarHost.Proofs.Link.Delivery

/-!
# A line that does not keep its host waiting

What the next reads of a line give may be had before any time has passed (`Ready`); what waits in a
line may be given without delay (`Prompt`), and then it is ready as a whole. A packet that is
awaited and is ready is found before any time has passed, whatever becomes of the line after it:
`Wait.ends_ready` takes one turn for each read that it needs, and
`PacketReader.ends_exchange_prompt` is the case of a reply. A wait has to be given some time for
that, however little: at its deadline it finds what the reader holds and no more, whatever its line
would give (`Wait.ends_turn_over`).
-/

namespace RadarHost

open Dialogue

/-- Some bytes may be had of a line without waiting. In a state of which `At n rest t` is true the
time is `t`, and the next reads, no more than `n`, give the bytes `rest` while it still is. Nothing
is said of a read that may take no time at all. -/
structure Ready {σ : Type} (answer : Surroundings σ) (line : Nat)
    (At : (reads : Nat) → (rest : Bytes) → Instant → σ → Prop) : Prop where
  now : ∀ {n rest t s}, At n rest t s → (answer .now s).1 = t ∧ At n rest t (answer .now s).2
  report : ∀ {n rest t s} (event : Event), At n rest t s →
    At n rest t (answer (.report event) s).2
  read : ∀ {n rest t s} {timeout : Duration}, 0 < timeout → rest ≠ [] → At n rest t s →
    ∃ m < n, ∃ piece left, rest = piece ++ left ∧
      (answer (.read line PacketReader.readChunk timeout) s).1 = .bytes piece ∧
      At m left t (answer (.read line PacketReader.readChunk timeout) s).2

/-- As long as nothing is read, the clock stands at `t`, and what is true of the surroundings stays
true when they tell the time or hear a report. -/
structure Stands {σ : Type} (answer : Surroundings σ) (t : Instant) (kept : σ → Prop) : Prop where
  now : ∀ {s}, kept s → (answer .now s).1 = t ∧ kept (answer .now s).2
  report : ∀ {s} (event : Event), kept s → kept (answer (.report event) s).2

theorem Ready.stands {σ : Type} {answer : Surroundings σ} {line n : Nat} {rest : Bytes}
    {t : Instant} {At : Nat → Bytes → Instant → σ → Prop} (hr : Ready answer line At) :
    Stands answer t (At n rest t) := ⟨hr.now, hr.report⟩

/-- A line gives what waits in it without delay. In a state of which `At rest t` is true the time is
`t`, and the bytes `rest` wait in the line. -/
structure Prompt {σ : Type} (answer : Surroundings σ) (line : Nat)
    (At : (rest : Bytes) → Instant → σ → Prop) : Prop where
  now : ∀ {rest t s}, At rest t s → (answer .now s).1 = t ∧ At rest t (answer .now s).2
  report : ∀ {rest t s} (event : Event), At rest t s → At rest t (answer (.report event) s).2
  read : ∀ {rest t s} (timeout : Duration), rest ≠ [] → At rest t s →
    ∃ piece left, rest = piece ++ left ∧ piece ≠ [] ∧
      (answer (.read line PacketReader.readChunk timeout) s).1 = .bytes piece ∧
      At left t (answer (.read line PacketReader.readChunk timeout) s).2

section

variable {σ : Type} {answer : Surroundings σ} {line : Nat}

/-- What waits in a line that gives it without delay takes no more reads than there are bytes. -/
theorem Prompt.ready {At : Bytes → Instant → σ → Prop} (hp : Prompt answer line At) :
    Ready answer line fun n rest t s => At rest t s ∧ rest.length ≤ n where
  now h := ⟨(hp.now h.1).1, (hp.now h.1).2, h.2⟩
  report event h := ⟨hp.report event h.1, h.2⟩
  read {n rest t s timeout} _ hrest h := by
    obtain ⟨piece, left, rfl, hpiece, hanswer, there⟩ := hp.read timeout hrest h.1
    have hshort : left.length < (piece ++ left).length := by
      rw [List.length_append]
      exact Nat.lt_add_of_pos_left (List.length_pos_iff.2 hpiece)
    exact ⟨left.length, hshort.trans_le h.2, piece, left, rfl, hanswer, there, Nat.le_refl _⟩

namespace Wait

variable {π α : Type} {w : Wait π α} {deadline t : Instant} {limit n : Nat} {stream last : Bytes}
  {p : π}

/-- How a wait ends for which there is a packet: with that packet, and what follows it is held or
still waits. -/
def Found (w : Wait π α) (At : Bytes → Instant → σ → Prop) (t : Instant) (limit : Nat) (p : π)
    (last : Bytes) (x : α × PacketReader) (s : σ) : Prop :=
  ∃ rest, x.1 = w.finish p ∧ x.2.limit = limit ∧ x.2.bytes ++ rest = last ∧ At rest t s

variable {At : Nat → Bytes → Instant → σ → Prop}

/-- What is true between the turns of a wait for a packet that is ready, with `k` reads to go: the
wait has time, or the reader holds the packet. -/
def Nearing (w : Wait π α) (At : Nat → Bytes → Instant → σ → Prop) (deadline t : Instant)
    (limit n : Nat) (stream : Bytes) (k : Nat) (r : PacketReader) (s : σ) : Prop :=
  k ≤ n ∧ ∃ rest, At k rest t s ∧ w.Facing limit stream r rest ∧
    (t < deadline ∨ (r.take w.wanted).packet ≠ none)

theorem ends_turn_ready (hr : Ready answer line At)
    (hnext : (Packet.takeUntil w.wanted limit stream).taken = (some p, last)) {k : Nat}
    {r : PacketReader} {s : σ} (h : w.Nearing At deadline t limit n stream k r s) :
    Ends answer
      (Turned (fun r s => ∃ k' < k, w.Nearing At deadline t limit n stream k' r s)
        (w.Found (fun rest t s => ∃ m ≤ n, At m rest t s) t limit p last))
      (w.turn line deadline r) s := by
  obtain ⟨hk, rest, there, hf, htime⟩ := h
  refine (Ends.reportAll (fun s event => hr.report event) _ there).bind fun _ s there => ?_
  cases htake : (r.take w.wanted).packet with
  | some q =>
    have hq := (hf.next htake).symm.trans hnext
    obtain ⟨rfl, rfl⟩ : q = p ∧ _ = last := ⟨Option.some.inj (congrArg Prod.fst hq),
      congrArg Prod.snd hq⟩
    exact Ends.done
      ⟨rest, rfl, (PacketReader.limit_take ..).trans hf.limit_eq, rfl, k, hk, there⟩
  | none =>
    have ht : t < deadline := htime.resolve_right (not_not.2 htake)
    have hrest : rest ≠ [] := by
      rintro rfl
      have hnone := (hf.kept htake).none_of_nil (hf.none_kept htake)
      rw [show (Packet.takeUntil w.wanted limit stream).packet = some p from
        congrArg Prod.fst hnext] at hnone
      cases hnone
    obtain ⟨hnow, there⟩ := hr.now there
    refine Ends.ask ?_
    rw [hnow]
    show Ends answer _ (if deadline ≤ t then _ else _) _
    rw [if_neg (Nat.not_le_of_lt ht)]
    obtain ⟨m, hm, piece, left, rfl, hanswer, there⟩ :=
      hr.read (Nat.sub_pos_of_lt ht) hrest there
    refine Ends.ask ?_
    rw [hanswer]
    exact Ends.done ⟨m, hm, hm.le.trans hk, left, there, (hf.kept htake).append, .inl ht⟩

/-- A packet that is ready is found at once by a wait that has time; by any wait if the reader holds
it. -/
theorem ends_ready (hr : Ready answer line At) {budget : Nat} {rest : Bytes} {r : PacketReader}
    {s : σ} (hnext : (Packet.takeUntil w.wanted r.limit (r.bytes ++ rest)).taken = (some p, last))
    (htime : t < deadline ∨ (r.take w.wanted).packet ≠ none) (hb : n < budget)
    (there : At n rest t s) :
    Ends answer (w.Found (fun rest t s => ∃ m ≤ n, At m rest t s) t r.limit p last)
      (loop (w.turn line deadline) budget r) s :=
  Ends.loop (fun _ _ _ => ends_turn_ready hr hnext)
    ⟨Nat.le_refl n, rest, there, ⟨rfl, rfl⟩, htime⟩ hb

/-- A wait whose deadline has come when it begins reads nothing: it looks at what the reader holds,
and ends at once. -/
theorem ends_turn_over {kept : σ → Prop} (hs : Stands answer t kept) (hover : deadline ≤ t)
    {r : PacketReader} {s : σ} (h : kept s) :
    Ends answer
      (fun x s => x = .inr ((r.take w.wanted).packet.elim (w.late t) w.finish,
        (r.take w.wanted).reader) ∧ kept s)
      (w.turn line deadline r) s := by
  refine (Ends.reportAll (fun s event => hs.report event) _ h).bind fun _ s h => ?_
  cases (r.take w.wanted).packet with
  | some p => exact Ends.done ⟨rfl, h⟩
  | none =>
    obtain ⟨hnow, h⟩ := hs.now h
    refine Ends.ask ?_
    rw [hnow]
    show Ends answer _ (if deadline ≤ t then _ else _) _
    rw [if_pos hover]
    exact Ends.done ⟨rfl, h⟩

end Wait

/-- A command that can be written is answered by the first reply that the reader holds or that waits
in a prompt line. -/
theorem PacketReader.ends_exchange_prompt {At : Bytes → Instant → σ → Prop}
    (hp : Prompt answer line At) {budget : Nat} {command : Command}
    {payload packet reply rest last : Bytes} {timeout : Duration} {t : Instant} {r : PacketReader}
    {s : σ} (hr : Request.encode ⟨command, payload⟩ = .ok packet)
    (hw : (answer (.write line packet) s).1 = .ok ())
    (there : At rest t (answer (.write line packet) s).2)
    (hnext : (Packet.takeUntil Packet.reply? r.limit (r.bytes ++ rest)).taken =
      (some reply, last))
    (ht : 0 < timeout) (hb : rest.length < budget) :
    Ends answer ((replyWait command t).Found At t r.limit reply last)
      (r.exchange budget line command payload timeout) s := by
  unfold exchange
  rw [hr]
  refine Ends.ask ?_
  rw [hw]
  obtain ⟨hnow, there⟩ := hp.now there
  refine Ends.ask ?_
  rw [hnow]
  show Ends answer _ (loop (replyTurn line command t (Instant.deadlineAfter t timeout)) budget r) _
  rw [replyTurn_eq]
  obtain ⟨x, s', hrun, rest, hx, hlimit, hbytes, m, -, there, -⟩ :=
    Wait.ends_ready (w := replyWait command t) hp.ready hnext
      (.inl (Instant.lt_deadlineAfter ht t)) hb ⟨there, Nat.le_refl _⟩
  exact ⟨x, s', hrun, rest, hx, hlimit, hbytes, there⟩

end

end RadarHost
