import RadarHost.Link.Session
import RadarHost.Proofs.Packet.Wanted

/-!
# What is delivered on a line

A line delivers bytes in pieces, each when it pleases, and in the end has nothing left
(`Delivers`). Replies and frames are awaited in the same way (`Wait.turn`), so what a wait comes to
is said once: the next wanted packet of all that is held and still to come, or nothing, and then
none was passed over (`Wait.Awaited`). `Wait.ends_loop` says that a wait does come to its end,
within two turns more than there are reads; `PacketReader.ends_exchange` and
`PacketReader.ends_nextFrame` are its two cases.
-/

namespace RadarHost

namespace Dialogue

variable {α β ρ σ : Type} {answer : Surroundings σ} {s : σ}

/-- Carried through from a state, a dialogue ends with a value, and the value and the state at its
end are as `post` says. -/
def Ends (answer : Surroundings σ) (post : α → σ → Prop) (d : Dialogue α) (s : σ) : Prop :=
  ∃ a s', d.run answer s = (.ok a, s') ∧ post a s'

theorem Ends.done {post : α → σ → Prop} {a : α} (h : post a s) :
    Ends answer post (.done a) s := ⟨a, s, rfl, h⟩

theorem Ends.ask {post : α → σ → Prop} {action : Action} {next : action.Answer → Dialogue α}
    (h : Ends answer post (next (answer action s).1) (answer action s).2) :
    Ends answer post (.ask action next) s := h

theorem Ends.bind {mid : α → σ → Prop} {post : β → σ → Prop} {d : Dialogue α}
    {f : α → Dialogue β} (hd : Ends answer mid d s)
    (hf : ∀ a s, mid a s → Ends answer post (f a) s) : Ends answer post (d.bind f) s := by
  induction d generalizing s with
  | done value =>
    obtain ⟨_, _, ⟨⟩, h⟩ := hd
    exact hf _ _ h
  | broken why =>
    obtain ⟨_, _, ⟨⟩, _⟩ := hd
  | ask action next ih => exact ih _ hd

/-- A dialogue that ends needs no tidying up. -/
theorem Ends.protect {post : α → σ → Prop} {d : Dialogue α} (cleanup : Dialogue Unit)
    (h : Ends answer post d s) : Ends answer post (protect cleanup d) s := by
  induction d generalizing s with
  | done value => exact h
  | broken why =>
    obtain ⟨_, _, ⟨⟩, _⟩ := h
  | ask action next ih => exact ih _ h

/-- What a turn of a loop leaves: something to go on with, or a value. -/
def Turned (goOn : ρ → σ → Prop) (post : α → σ → Prop) : ρ ⊕ α → σ → Prop
  | .inl r, s => goOn r s
  | .inr a, s => post a s

/-- A loop ends if each of its turns either ends it or makes a count smaller, and the budget is more
than the count. -/
theorem Ends.loop {turn : ρ → Dialogue (ρ ⊕ α)} {inv : Nat → ρ → σ → Prop} {post : α → σ → Prop}
    (hturn : ∀ n r s, inv n r s →
      Ends answer (Turned (fun r s => ∃ m < n, inv m r s) post) (turn r) s) :
    ∀ {budget n : Nat} {r : ρ} {s : σ}, inv n r s → n < budget →
      Ends answer post (loop turn budget r) s := by
  intro budget
  induction budget with
  | zero => exact fun _ h => absurd h (Nat.not_lt_zero _)
  | succ budget ih =>
    intro n r s hi hn
    refine (hturn n r s hi).bind fun x s' h => ?_
    cases x with
    | inl r' =>
      obtain ⟨m, hm, hi'⟩ := h
      exact ih hi' (by omega)
    | inr a => exact Ends.done h

/-- What a report does not change, no reports change. -/
theorem Ends.reportAll {P : σ → Prop} (h : ∀ s event, P s → P (answer (.report event) s).2)
    (events : List Event) {s : σ} (hs : P s) :
    Ends answer (fun _ => P) (Dialogue.reportAll events) s := by
  induction events generalizing s with
  | nil => exact Ends.done hs
  | cons event events ih => exact Ends.ask (ih (h s event hs))

end Dialogue

open Dialogue

/-- Surroundings deliver on a line. In a state of which `At n rest t` is true the time is `t`, and
the line will deliver the bytes `rest`, and none but those, in the course of the next `n` reads: a
read gives a piece of them, or nothing, and takes any time. A read of a line that has nothing left
waits out its whole time. -/
structure Delivers {σ : Type} (answer : Surroundings σ) (line : Nat)
    (At : (reads : Nat) → (rest : Bytes) → Instant → σ → Prop) : Prop where
  now : ∀ {n rest t s}, At n rest t s →
    (answer .now s).1 = t ∧ At n rest t (answer .now s).2
  report : ∀ {n rest t s} (event : Event), At n rest t s →
    At n rest t (answer (.report event) s).2
  read : ∀ {n rest t s} (timeout : Duration), At (n + 1) rest t s →
    ∃ piece left elapsed, rest = piece ++ left ∧
      (answer (.read line PacketReader.readChunk timeout) s).1 = .bytes piece ∧
      At n left (t + elapsed) (answer (.read line PacketReader.readChunk timeout) s).2
  readLast : ∀ {rest t s} (timeout : Duration), At 0 rest t s →
    rest = [] ∧ ∃ elapsed, timeout ≤ elapsed ∧
      (answer (.read line PacketReader.readChunk timeout) s).1 = .bytes [] ∧
      At 0 [] (t + elapsed) (answer (.read line PacketReader.readChunk timeout) s).2

theorem Delivers.reportAll {σ : Type} {answer : Surroundings σ} {line : Nat}
    {At : Nat → Bytes → Instant → σ → Prop} (hd : Delivers answer line At) (events : List Event)
    {n : Nat} {rest : Bytes} {t : Instant} {s : σ} (h : At n rest t s) :
    Ends answer (fun _ => At n rest t) (Dialogue.reportAll events) s :=
  Ends.reportAll (fun _ event => hd.report event) events h

/-! ## Waits -/

theorem Instant.lt_deadlineAfter {timeout : Duration} (h : 0 < timeout) (now : Instant) :
    now < Instant.deadlineAfter now timeout := by
  have hwait : 0 < Duration.maxWait := by decide
  exact Nat.lt_add_of_pos_right (Nat.lt_min.2 ⟨h, hwait⟩)

/-- How a packet is awaited on a line. -/
structure Wait (π α : Type) where
  /-- The packets that are wanted. -/
  wanted : Packet → Option π
  /-- What is reported of what is passed over. -/
  passing : Packet.Passed → List Event
  /-- The result with a wanted packet. -/
  finish : π → α
  /-- The result when it is too late. -/
  late : Instant → α
  /-- The result when a read fails. -/
  failed : TransportError → α

namespace Wait

variable {π α σ : Type} {limit : Nat} {stream : Bytes}

/-- One turn of a wait: takes a wanted packet if it is complete, else reads the line unless it is
too late. -/
def turn (w : Wait π α) (line : Nat) (deadline : Instant) (r : PacketReader) :
    Dialogue (PacketReader ⊕ α × PacketReader) := do
  let taken := r.take w.wanted
  let kept := taken.reader
  Dialogue.reportAll (taken.passed.flatMap w.passing)
  match taken.packet with
  | some packet => return .inr (w.finish packet, kept)
  | none =>
    let now ← Dialogue.perform .now
    if deadline ≤ now then return .inr (w.late now, kept)
    match ← kept.fill line (deadline - now) with
    | .ok r => return .inl r
    | .error e => return .inr (w.failed e, kept)

/-- A reader that holds some bytes of a stream while others, `rest`, are still to come: it faces the
same next wanted packet as the stream from which it began. -/
structure Facing (w : Wait π α) (limit : Nat) (stream : Bytes) (r : PacketReader) (rest : Bytes) :
    Prop where
  limit_eq : r.limit = limit
  taken_eq : (Packet.takeUntil w.wanted limit (r.bytes ++ rest)).taken =
    (Packet.takeUntil w.wanted limit stream).taken

theorem taken_take (w : Wait π α) (r : PacketReader) :
    (Packet.takeUntil w.wanted r.limit r.bytes).taken =
      ((r.take w.wanted).packet, (r.take w.wanted).reader.bytes) := by
  rw [PacketReader.take_packet, PacketReader.bytes_take]
  rfl

/-- A packet that the reader can take is the next one of the stream. -/
theorem Facing.next {w : Wait π α} {r : PacketReader} {rest : Bytes} {p : π}
    (h : w.Facing limit stream r rest) (hp : (r.take w.wanted).packet = some p) :
    (Packet.takeUntil w.wanted limit stream).taken =
      (some p, (r.take w.wanted).reader.bytes ++ rest) := by
  have ht := taken_take w r
  rw [hp, h.limit_eq] at ht
  rw [← h.taken_eq, Packet.wanted_append_of_some rest ht]

/-- What the reader keeps when it can take none faces the same packet. -/
theorem Facing.kept {w : Wait π α} {r : PacketReader} {rest : Bytes}
    (h : w.Facing limit stream r rest) (hp : (r.take w.wanted).packet = none) :
    w.Facing limit stream (r.take w.wanted).reader rest where
  limit_eq := (PacketReader.limit_take ..).trans h.limit_eq
  taken_eq := by
    have ht := taken_take w r
    rw [hp, h.limit_eq] at ht
    rw [← Packet.wanted_append_of_none rest ht, h.taken_eq]

theorem Facing.none_kept {w : Wait π α} {r : PacketReader} {rest : Bytes}
    (h : w.Facing limit stream r rest) (hp : (r.take w.wanted).packet = none) :
    (Packet.takeUntil w.wanted limit (r.take w.wanted).reader.bytes).packet = none := by
  have ht := taken_take w r
  rw [hp, h.limit_eq] at ht
  exact congrArg Prod.fst (Packet.wanted_rest ht)

theorem Facing.append {w : Wait π α} {r : PacketReader} {piece left : Bytes}
    (h : w.Facing limit stream r (piece ++ left)) :
    w.Facing limit stream (r.append piece) left where
  limit_eq := h.limit_eq
  taken_eq := by rw [PacketReader.bytes_append, List.append_assoc, h.taken_eq]

/-- When nothing is still to come, a reader with no wanted packet faces none. -/
theorem Facing.none_of_nil {w : Wait π α} {r : PacketReader} (h : w.Facing limit stream r [])
    (hp : (Packet.takeUntil w.wanted limit r.bytes).packet = none) :
    (Packet.takeUntil w.wanted limit stream).packet = none := by
  have ht := h.taken_eq
  rw [List.append_nil] at ht
  exact (congrArg Prod.fst ht).symm.trans hp

section

variable {answer : Surroundings σ} {line : Nat} (w : Wait π α) (deadline : Instant)
  (At : Nat → Bytes → Instant → σ → Prop) (n : Nat) (start : Instant) (limit : Nat)
  (stream : Bytes)

/-- How a wait ends that began at `start`, `n` reads before the end of a stream. -/
inductive Awaited : α × PacketReader → σ → Prop
  /-- With the next wanted packet of the stream. -/
  | taken {m : Nat} {rest : Bytes} {t : Instant} {s : σ} {p : π} {r : PacketReader}
    (there : At m rest t s) (reads : m ≤ n) (same : r.limit = limit)
    (next : (Packet.takeUntil w.wanted limit stream).taken = (some p, r.bytes ++ rest)) :
    Awaited (w.finish p, r) s
  /-- With no wanted packet in what has come. Unless it was too late from the start, there has been
  a read. -/
  | late {m : Nat} {rest : Bytes} {t : Instant} {s : σ} {r : PacketReader}
    (there : At m rest t s) (reads : start < deadline → m ≤ n - 1)
    (facing : w.Facing limit stream r rest)
    (none : (Packet.takeUntil w.wanted limit r.bytes).packet = none) :
    Awaited (w.late t, r) s

/-- What is true between the turns of a wait: unless it is too late, fewer than `k` reads are
left. -/
def Waiting (k : Nat) (r : PacketReader) (s : σ) : Prop :=
  ∃ m rest t, At m rest t s ∧ m ≤ n ∧ w.Facing limit stream r rest ∧ (t < deadline → m < k) ∧
    (start < deadline → deadline ≤ t → m ≤ n - 1)

variable {w deadline At n start limit stream}

theorem ends_turn (hd : Delivers answer line At) {k : Nat} {r : PacketReader} {s : σ}
    (h : w.Waiting deadline At n start limit stream k r s) :
    Ends answer
      (Turned (fun r s => ∃ k' < k, w.Waiting deadline At n start limit stream k' r s)
        (w.Awaited deadline At n start limit stream))
      (w.turn line deadline r) s := by
  obtain ⟨m, rest, t, there, hm, hf, hk, hlate⟩ := h
  refine (hd.reportAll _ there).bind fun _ s there => ?_
  cases hp : (r.take w.wanted).packet with
  | some p =>
    exact Ends.done
      (.taken there hm ((PacketReader.limit_take ..).trans hf.limit_eq) (hf.next hp))
  | none =>
    obtain ⟨hnow, there⟩ := hd.now there
    refine Ends.ask ?_
    rw [hnow]
    show Ends answer _ (if deadline ≤ t then _ else _) _
    split
    · rename_i hle
      exact Ends.done (.late there (hlate · hle) (hf.kept hp) (hf.none_kept hp))
    · rename_i hlt
      have hkm := hk (Nat.lt_of_not_le hlt)
      cases m with
      | zero =>
        obtain ⟨rfl, elapsed, he, ha, there⟩ := hd.readLast (deadline - t) there
        refine Ends.ask ?_
        rw [ha]
        have hover : deadline ≤ t + elapsed := Nat.sub_le_iff_le_add'.1 he
        exact Ends.done ⟨0, hkm, 0, [], _, there, hm, (hf.kept hp).append,
          fun h => absurd h (Nat.not_lt_of_le hover), fun _ _ => Nat.zero_le _⟩
      | succ m =>
        obtain ⟨piece, left, elapsed, rfl, ha, there⟩ := hd.read (deadline - t) there
        refine Ends.ask ?_
        rw [ha]
        exact Ends.done ⟨m + 1, hkm, m, left, _, there, Nat.le_of_succ_le hm,
          (hf.kept hp).append, fun _ => Nat.lt_succ_self m, fun _ _ => Nat.le_sub_one_of_lt hm⟩

/-- A wait comes to its end within two turns more than there are reads. -/
theorem ends_loop (hd : Delivers answer line At) {budget : Nat} {rest : Bytes} {r : PacketReader}
    {s : σ} (hb : n + 2 ≤ budget) (there : At n rest start s) :
    Ends answer (w.Awaited deadline At n start r.limit (r.bytes ++ rest))
      (loop (w.turn line deadline) budget r) s :=
  have hi : w.Waiting deadline At n start r.limit (r.bytes ++ rest) (n + 1) r s :=
    ⟨n, rest, start, there, Nat.le_refl n, ⟨rfl, rfl⟩, fun _ => Nat.lt_succ_self n,
      fun h h' => absurd h (Nat.not_lt_of_le h')⟩
  Ends.loop (fun _ _ _ => ends_turn hd) hi hb

end

end Wait

namespace PacketReader

variable {σ : Type} {answer : Surroundings σ} {line : Nat} {At : Nat → Bytes → Instant → σ → Prop}

/-! ## Replies -/

/-- What is made of a reply to a command. -/
def replied (command : Command) (packet : Bytes) : Except LinkError Bytes :=
  match Reply.parse packet command with
  | .ok reply => .ok reply.payload
  | .error e => .error (.packet e)

/-- How the reply to a command is awaited. -/
def replyWait (command : Command) (started : Instant) : Wait Bytes (Except LinkError Bytes) where
  wanted := Packet.reply?
  passing := awaitingReply command
  finish := replied command
  late now := .error (.transport (.timeout (Duration.millis (now - started))))
  failed e := .error (.transport e)

theorem replyTurn_eq (line : Nat) (command : Command) (started deadline : Instant) :
    replyTurn line command started deadline = (replyWait command started).turn line deadline := by
  funext r
  unfold replyTurn Wait.turn replyWait replied
  dsimp only
  congr 1
  funext _
  cases (r.take Packet.reply?).packet with
  | none => rfl
  | some packet =>
    dsimp only
    cases Reply.parse packet command <;> rfl

/-- A command that can be written is answered by the first reply of what the reader holds and the
line then delivers, or by none. -/
theorem ends_exchange (hd : Delivers answer line At) {budget n : Nat} {command : Command}
    {payload packet rest : Bytes} {timeout : Duration} {t : Instant} {r : PacketReader} {s : σ}
    (hp : Request.encode ⟨command, payload⟩ = .ok packet)
    (hw : (answer (.write line packet) s).1 = .ok ())
    (there : At n rest t (answer (.write line packet) s).2) (hb : n + 2 ≤ budget) :
    Ends answer
      ((replyWait command t).Awaited (Instant.deadlineAfter t timeout) At n t r.limit
        (r.bytes ++ rest))
      (r.exchange budget line command payload timeout) s := by
  unfold exchange
  rw [hp]
  refine Ends.ask ?_
  rw [hw]
  obtain ⟨hnow, there⟩ := hd.now there
  refine Ends.ask ?_
  rw [hnow]
  show Ends answer _ (loop (replyTurn line command t (Instant.deadlineAfter t timeout)) budget r) _
  rw [replyTurn_eq]
  exact Wait.ends_loop hd hb there

/-! ## Frames -/

/-- How a frame packet is awaited. -/
def frameWait : Wait (FrameHeader × Bytes) (Except TransportError (Option (FrameHeader × Bytes)))
    where
  wanted := Packet.frame?
  passing := awaitingFrame
  finish packet := .ok (some packet)
  late _ := .ok none
  failed := .error

theorem frameTurn_eq (line : Nat) (deadline : Instant) :
    frameTurn line deadline = frameWait.turn line deadline := by
  funext r
  unfold frameTurn Wait.turn frameWait
  dsimp only
  congr 1
  funext _
  cases (r.take Packet.frame?).packet <;> rfl

theorem ends_nextFrame (hd : Delivers answer line At) {budget n : Nat} {rest : Bytes}
    {timeout : Duration} {t : Instant} {r : PacketReader} {s : σ} (there : At n rest t s)
    (hb : n + 2 ≤ budget) :
    Ends answer
      (frameWait.Awaited (Instant.deadlineAfter t timeout) At n t r.limit (r.bytes ++ rest))
      (r.nextFrame budget line timeout) s := by
  obtain ⟨hnow, there⟩ := hd.now there
  refine Ends.ask ?_
  rw [hnow]
  show Ends answer _ (loop (frameTurn line (Instant.deadlineAfter t timeout)) budget r) _
  rw [frameTurn_eq]
  exact Wait.ends_loop hd hb there

end PacketReader

end RadarHost
