import RadarHost.Proofs.Packet.Access
import RadarHost.Proofs.Packet.Reassembly

/-!
# The bytes that a search discards

A search for a packet drops bytes from the front of a buffer: in one go up to the next start byte,
and then one at a time where the header behind a start byte is implausible. `search` is the search
once more, turn by turn, where each byte that is looked up and each run that is removed has to be
there. It has an outcome after at most one turn more than there are bytes, and that is the next
packet and what is kept (`search_eq`).

`Refused` says of some bytes, without the search, that the first one starts no packet. A search
discards just the refused bytes before the first one that is not (`exists_skipped`), so that it
keeps every start byte whose header has not all come yet: `bytes_accounted`.
-/

namespace RadarHost

/-- A length is refused when it is announced and no reply is that long. -/
theorem Reply.exists_of_packetLen_error {bytes : Bytes} {e : PacketError}
    (h : packetLen bytes = .error e) :
    ∃ start command s₀ s₁ l₀ l₁ rest,
      bytes = start :: command :: s₀ :: s₁ :: l₀ :: l₁ :: rest ∧
      Packet.maxReplyPayload < Bytes.toNat [l₀, l₁] := by
  unfold packetLen at h
  split at h
  · rename_i start command s₀ s₁ l₀ l₁ rest
    dsimp only at h
    split at h
    · rename_i hmax
      exact ⟨start, command, s₀, s₁, l₀, l₁, rest, rfl, hmax⟩
    · cases h
  · cases h

/-- A header behind the start byte of a frame is refused when all of it is there and the payload
that it announces is too long. -/
theorem FrameHeader.exists_of_parse_error {tail : Bytes} {limit : Nat} {e : PacketError}
    (h : parse (Packet.frameStart :: tail) limit = .error e) (hc : ∀ c, e ≠ .cursor c) :
    ∃ flags q₀ q₁ q₂ q₃ l₀ l₁ l₂ l₃ rest,
      tail = flags :: q₀ :: q₁ :: q₂ :: q₃ :: l₀ :: l₁ :: l₂ :: l₃ :: rest ∧
      maxPayload limit < Bytes.toNat [l₀, l₁, l₂, l₃] := by
  unfold parse at h
  split at h
  · rename_i heq
    cases heq
    dsimp only at h
    rw [if_neg (not_not.2 rfl)] at h
    split at h
    · rename_i flags q₀ q₁ q₂ q₃ l₀ l₁ l₂ l₃ rest hmax
      exact ⟨flags, q₀, q₁, q₂, q₃, l₀, l₁, l₂, l₃, rest, rfl, hmax⟩
    · cases h
  · cases h
    exact absurd rfl (hc _)

namespace Packet

variable {limit turns : Nat} {buffer tail rest skipped : Bytes} {b : UInt8}
  {packet : Option Packet}

/-! ## Turn by turn -/

/-- What one turn of a search comes to. -/
inductive Turn
  /-- The search is over. -/
  | ended (packet : Option Packet) (rest : Bytes)
  /-- A start byte was noise, and the search goes on behind it. -/
  | again (rest : Bytes)

/-- Removes bytes from the front of a buffer, if there are that many. -/
def removeFront? (count : Nat) (buffer : Bytes) : Option (Bytes × Bytes) :=
  if count ≤ buffer.length then some (buffer.take count, buffer.drop count) else none

theorem removeFront?_of_le {count : Nat} (h : count ≤ buffer.length) :
    removeFront? count buffer = some (buffer.take count, buffer.drop count) :=
  if_pos h

/-- Ends a search with a packet of so many bytes, unless they are not all there yet. -/
def endWith (held : Bytes) (size : Nat) (packet : Bytes → Packet) : Option Turn :=
  if held.length < size then return .ended none held
  else do
    let (bytes, rest) ← removeFront? size held
    return .ended (some (packet bytes)) rest

/-- One turn of a search. It has no outcome if it looks for a byte that is not there, or removes
more bytes than there are. -/
def turn (limit : Nat) (buffer : Bytes) : Option Turn :=
  match buffer.findIdx? isStart with
  | none => return .ended none []
  | some place => do
    let (_, held) ← removeFront? place buffer
    if (← held[0]?) = replyStart then
      match ← (Reply.readLen held).run with
      | .error _ => return .again (← removeFront? 1 held).2
      | .ok none => return .ended none held
      | .ok (some total) => endWith held total .reply
    else if held.length < FrameHeader.size then return .ended none held
    else
      match ← (FrameHeader.read held limit).run with
      | .error _ => return .again (← removeFront? 1 held).2
      | .ok header => endWith held header.packetLen (.frame header)

/-- Searches a buffer for a packet, for so many turns. -/
def search (limit : Nat) : (turns : Nat) → (buffer : Bytes) → Option (Option Packet × Bytes)
  | 0, _ => none
  | turns + 1, buffer => do
    match ← turn limit buffer with
    | .ended packet rest => return (packet, rest)
    | .again rest => search limit turns rest

/-- A byte that can start no packet makes no difference to the turn. -/
theorem turn_cons_of_noise (hs : isStart b = false) :
    turn limit (b :: tail) = turn limit tail := by
  unfold turn
  rw [List.findIdx?_cons, hs]
  cases hfind : tail.findIdx? isStart with
  | none => rfl
  | some place =>
    have hplace : place ≤ tail.length := (List.findIdx?_eq_some_iff_getElem.1 hfind).1.le
    have hcons : removeFront? (place + 1) (b :: tail) =
        some (b :: tail.take place, tail.drop place) :=
      removeFront?_of_le (Nat.succ_le_succ hplace)
    simp only [Bool.false_eq_true, if_false, Option.map_some, hcons, removeFront?_of_le hplace]
    rfl

/-- What the turn at a start byte comes to is told by the verdict. -/
def Verdict.turn (held : Bytes) : Verdict → Turn
  | wait => .ended none held
  | take packet size => .ended (some packet) (held.drop size)
  | unlikely => .again held.tail

theorem endWith_eq (held : Bytes) (size : Nat) (packet : Bytes → Packet) :
    endWith held size packet = some (Verdict.turn held
      (if held.length < size then .wait else .take (packet (held.take size)) size)) := by
  unfold endWith
  by_cases hall : held.length < size
  · rw [if_pos hall, if_pos hall]
    rfl
  · rw [if_neg hall, if_neg hall, removeFront?_of_le (Nat.le_of_not_lt hall)]
    rfl

theorem turn_cons_of_start (hs : isStart b = true) :
    turn limit (b :: tail) = some ((verdict limit (b :: tail)).turn (b :: tail)) := by
  have hfind : (b :: tail).findIdx? isStart = some 0 := by rw [List.findIdx?_cons, hs]; rfl
  have hnone : removeFront? 0 (b :: tail) = some ([], b :: tail) := rfl
  unfold turn
  simp only [hfind, hnone, Option.bind_eq_bind, Option.bind_some, List.getElem?_cons_zero]
  by_cases hb : b = replyStart
  · have hhead : (b :: tail).head? = some replyStart := congrArg some hb
    rw [if_pos hb, Reply.readLen_eq, verdict, if_pos hhead]
    cases hlen : Reply.packetLen (b :: tail) with
    | error e => rfl
    | ok total =>
      cases total with
      | none => rfl
      | some total => exact endWith_eq ..
  · have hhead : (b :: tail).head? ≠ some replyStart := fun h => hb (Option.some.inj h)
    rw [if_neg hb, verdict, if_neg hhead]
    by_cases hsize : (b :: tail).length < FrameHeader.size
    · rw [if_pos hsize, FrameHeader.parse_of_length_lt limit hsize]
      rfl
    · rw [if_neg hsize, FrameHeader.read_eq]
      cases hparse : FrameHeader.parse (b :: tail) limit with
      | error e =>
        cases e with
        | cursor c => exact absurd (FrameHeader.length_lt_of_parse_cursor hparse) hsize
        | _ => rfl
      | ok header => exact endWith_eq ..

/-- A search comes to its end within one turn more than there are bytes, and finds and keeps what
taking the next packet does. -/
theorem search_eq (ht : buffer.length < turns) :
    search limit turns buffer = some (next limit buffer).taken := by
  obtain ⟨turns, rfl⟩ := Nat.exists_eq_succ_of_ne_zero (Nat.ne_zero_of_lt ht)
  induction buffer using reader_induction limit generalizing turns with
  | nil => rw [taken_of_noise rfl]; rfl
  | noise b tail hs ih =>
    -- noise is dropped by the turn that looks behind it, so that it takes no turn of its own
    have hcons : search limit (turns + 1) (b :: tail) = search limit (turns + 1) tail := by
      rw [search, turn_cons_of_noise hs, search]
    rw [hcons, taken_cons_of_noise hs]
    exact ih turns (Nat.lt_of_succ_lt ht)
  | wait b tail hs hv =>
    rw [search, turn_cons_of_start hs, hv, taken_cons_of_wait hs hv]
    rfl
  | unlikely b tail hs hv ih =>
    have hagain : search limit (turns + 1) (b :: tail) = search limit turns tail := by
      rw [search, turn_cons_of_start hs, hv]
      rfl
    have htail : tail.length < turns := Nat.lt_of_succ_lt_succ ht
    obtain ⟨turns, rfl⟩ := Nat.exists_eq_succ_of_ne_zero (Nat.ne_zero_of_lt htail)
    rw [hagain, taken_cons_of_unlikely hs hv]
    exact ih turns htail
  | take b tail packet size hs hv ih =>
    rw [search, turn_cons_of_start hs, hv, taken_cons_of_take hs hv]
    rfl

/-- Under a limit of 16, the header of a frame of 32 bytes is noise; the reply behind it has just
begun. -/
example : search 16 14 [0x55, 3, 0, 1, 0, 0, 0, 32, 0, 0, 0, 2, 0x10] = some (none, [2, 0x10]) := by
  decide

/-! ## What is refused -/

/-- Bytes of which the first one starts no packet: it is no start byte, or all of the header behind
it is there and announces a longer payload than any packet of its kind has. -/
inductive Refused (limit : Nat) : Bytes → Prop
  | noise {b : UInt8} {tail : Bytes} (hr : b ≠ 0x02) (hf : b ≠ 0x03) : Refused limit (b :: tail)
  | reply {command s₀ s₁ l₀ l₁ : UInt8} {tail : Bytes} (h : 1024 < Bytes.toNat [l₀, l₁]) :
    Refused limit (0x02 :: command :: s₀ :: s₁ :: l₀ :: l₁ :: tail)
  | frame {flags q₀ q₁ q₂ q₃ l₀ l₁ l₂ l₃ : UInt8} {tail : Bytes}
    (h : min limit 0x100000 < Bytes.toNat [l₀, l₁, l₂, l₃]) :
    Refused limit (0x03 :: flags :: q₀ :: q₁ :: q₂ :: q₃ :: l₀ :: l₁ :: l₂ :: l₃ :: tail)

/-- Bytes that begin with a start byte and end within the header behind it. -/
def BreaksOff (held : Bytes) : Prop :=
  held.head? = some 0x02 ∧ held.length < 6 ∨ held.head? = some 0x03 ∧ held.length < 10

theorem isStart_eq_false_iff : isStart b = false ↔ b ≠ 0x02 ∧ b ≠ 0x03 := by
  simp [isStart, replyStart, frameStart]

theorem refused_of_unlikely (hs : isStart b = true)
    (hv : verdict limit (b :: tail) = .unlikely) : Refused limit (b :: tail) := by
  unfold verdict at hv
  split at hv
  · rename_i hhead
    obtain rfl : b = replyStart := Option.some.inj hhead
    split at hv
    · rename_i e hlen
      obtain ⟨_, _, _, _, _, _, _, hbytes, hmax⟩ := Reply.exists_of_packetLen_error hlen
      obtain ⟨rfl, rfl⟩ := List.cons.inj hbytes
      exact .reply hmax
    · cases hv
    · split at hv <;> cases hv
  · rename_i hhead
    obtain rfl : b = frameStart := by
      simp only [isStart, Bool.or_eq_true, beq_iff_eq] at hs
      exact hs.resolve_left fun hb => hhead (congrArg some hb)
    split at hv
    · cases hv
    · rename_i hcursor hparse
      obtain ⟨_, _, _, _, _, _, _, _, _, _, rfl, hmax⟩ :=
        FrameHeader.exists_of_parse_error hparse hcursor
      exact .frame hmax
    · split at hv <;> cases hv

theorem verdict_of_refused (hs : isStart b = true) (h : Refused limit (b :: tail)) :
    verdict limit (b :: tail) = .unlikely := by
  cases h with
  | noise hr hf =>
    rw [isStart_eq_false_iff.2 ⟨hr, hf⟩] at hs
    cases hs
  | @reply command s₀ s₁ l₀ l₁ tail hmax =>
    have hlen : Reply.packetLen (0x02 :: command :: s₀ :: s₁ :: l₀ :: l₁ :: tail) = _ := if_pos hmax
    rw [verdict, List.head?_cons, if_pos (by decide), hlen]
  | @frame flags q₀ q₁ q₂ q₃ l₀ l₁ l₂ l₃ tail hmax =>
    have hparse : FrameHeader.parse
        (0x03 :: flags :: q₀ :: q₁ :: q₂ :: q₃ :: l₀ :: l₁ :: l₂ :: l₃ :: tail) limit = _ :=
      if_pos hmax
    rw [verdict, List.head?_cons, if_neg (by decide), hparse]

theorem not_refused_of_breaksOff {held : Bytes} (h : BreaksOff held) : ¬ Refused limit held := by
  intro hr
  cases hr with
  | noise hr hf => simp [BreaksOff, hr, hf] at h
  | reply =>
    simp only [BreaksOff, List.length_cons] at h
    rcases h with ⟨-, hlen⟩ | ⟨hhead, -⟩
    · omega
    · cases hhead
  | frame =>
    simp only [BreaksOff, List.length_cons] at h
    rcases h with ⟨hhead, -⟩ | ⟨-, hlen⟩
    · cases hhead
    · omega

/-! ## What is discarded -/

/-- A buffer is some bytes that are discarded, all of them refused, then a packet if there is one,
and what is kept. -/
structure Accounted (limit : Nat) (buffer skipped : Bytes) (packet : Option Packet)
    (rest : Bytes) : Prop where
  split : buffer = skipped ++ (packet.elim [] bytes ++ rest)
  refused : ∀ place < skipped.length, Refused limit (buffer.drop place)
  not_refused : ¬ Refused limit (buffer.drop skipped.length)

theorem Accounted.cons (hb : Refused limit (b :: tail))
    (h : Accounted limit tail skipped packet rest) :
    Accounted limit (b :: tail) (b :: skipped) packet rest where
  split := congrArg (b :: ·) h.split
  refused place hp := by
    cases place with
    | zero => exact hb
    | succ place => exact h.refused place (Nat.lt_of_succ_lt_succ hp)
  not_refused := h.not_refused

/-- Before a start byte that is not refused, nothing is discarded. -/
theorem Accounted.start (hs : isStart b = true) (hv : verdict limit (b :: tail) ≠ .unlikely)
    (hsplit : b :: tail = packet.elim [] bytes ++ rest) :
    Accounted limit (b :: tail) [] packet rest where
  split := hsplit
  refused _ hp := absurd hp (Nat.not_lt_zero _)
  not_refused hr := hv (verdict_of_refused hs hr)

theorem exists_skipped (limit : Nat) (buffer : Bytes) :
    ∃ skipped, Accounted limit buffer skipped (next limit buffer).taken.1
      (next limit buffer).taken.2 := by
  induction buffer using reader_induction limit with
  | nil =>
    rw [taken_of_noise rfl]
    exact ⟨[], rfl, fun _ hp => absurd hp (Nat.not_lt_zero _), nofun⟩
  | noise b tail hs ih =>
    obtain ⟨skipped, h⟩ := ih
    obtain ⟨hr, hf⟩ := isStart_eq_false_iff.1 hs
    rw [taken_cons_of_noise hs]
    exact ⟨b :: skipped, h.cons (.noise hr hf)⟩
  | wait b tail hs hv =>
    rw [taken_cons_of_wait hs hv]
    exact ⟨[], .start hs (hv ▸ nofun) rfl⟩
  | unlikely b tail hs hv ih =>
    obtain ⟨skipped, h⟩ := ih
    rw [taken_cons_of_unlikely hs hv]
    exact ⟨b :: skipped, h.cons (refused_of_unlikely hs hv)⟩
  | take b tail packet size hs hv ih =>
    have hsplit : b :: tail = packet.bytes ++ (b :: tail).drop size := by
      rw [bytes_of_verdict hv, List.take_append_drop]
    rw [taken_cons_of_take hs hv]
    exact ⟨[], .start hs (hv ▸ nofun) hsplit⟩

end Packet

namespace PacketReader

open Packet

/-- Taking the next packet comes to its end within one turn more than there are bytes, and no turn
looks for a byte that is not there. All bytes are accounted for: first those that are discarded, of
which each is refused; then those of the packet, if there is one; then those that are kept, and what
stands behind the discarded ones is not refused. So a start byte stays while its header is still
incomplete. -/
theorem bytes_accounted (r : PacketReader) :
    let found := (r.take some).packet
    let kept := (r.take some).reader.bytes
    search r.limit (r.bytes.length + 1) r.bytes = some (found, kept) ∧
    ∃ discarded, r.bytes = discarded ++ found.elim [] Packet.bytes ++ kept ∧
      (∀ place < discarded.length, Refused r.limit (r.bytes.drop place)) ∧
      ¬ Refused r.limit (r.bytes.drop discarded.length) ∧
      ∀ place, BreaksOff (r.bytes.drop place) → discarded.length ≤ place := by
  intro found kept
  have htaken : (next r.limit r.bytes).taken = (found, kept) := r.take_some.symm
  have hsearch : search r.limit (r.bytes.length + 1) r.bytes = some (next r.limit r.bytes).taken :=
    search_eq (Nat.lt_succ_self _)
  obtain ⟨discarded, h⟩ := exists_skipped r.limit r.bytes
  rw [htaken] at hsearch h
  refine ⟨hsearch, discarded, ?_, h.refused, h.not_refused, fun place hbreaks => ?_⟩
  · rw [List.append_assoc]
    exact h.split
  · by_contra hplace
    exact not_refused_of_breaksOff hbreaks (h.refused place (Nat.lt_of_not_le hplace))

end PacketReader

end RadarHost
