import Mathlib.Data.List.DropRight
import RadarHost.Packet.Stream

/-!
# The framing of a stream

Which packets a byte stream holds. A stream is looked at again and again while it arrives, so the
one thing to know is that a look at its beginning decides nothing that a later look would decide
otherwise:

* `Reply.packetLen_append_error`, `FrameHeader.parse_append_error`: a header that was refused stays
  refused, whatever follows;
* `verdict_append_of_take`, `verdict_append_of_unlikely`: so does a verdict other than to wait;
* `taken_append`: the next packet of a longer stream, from what a look at its beginning left;
* `framing_append`: the packets of a stream are those of its beginning, then those of what the
  beginning left followed by the rest.

The noise that was skipped is not looked at: one run of noise is reported once for each piece in
which it arrives.
-/

namespace RadarHost

/-- A length that has been refused stays refused, whatever follows. -/
theorem Reply.packetLen_append_error {bytes : Bytes} {e : PacketError} (later : Bytes)
    (h : packetLen bytes = .error e) : packetLen (bytes ++ later) = .error e := by
  unfold packetLen at h
  split at h
  · exact h
  · cases h

/-- A header of which every byte is there and that has been refused stays refused, whatever
follows. -/
theorem FrameHeader.parse_append_error {bytes : Bytes} {limit : Nat} {e : PacketError}
    (later : Bytes) (h : parse bytes limit = .error e) (hc : ∀ c, e ≠ .cursor c) :
    parse (bytes ++ later) limit = .error e := by
  unfold parse at h
  split at h
  · exact h
  · cases h
    exact absurd rfl (hc _)

namespace Packet

/-! ## Verdicts -/

/-- A packet that is there stays what it is, and all its bytes are there. -/
theorem verdict_append_of_take {limit size : Nat} {held : Bytes} {packet : Packet}
    (later : Bytes) (h : verdict limit held = .take packet size) :
    verdict limit (held ++ later) = .take packet size ∧ size ≤ held.length := by
  have hne : held ≠ [] := by
    rintro rfl
    cases h
  unfold verdict at h ⊢
  rw [List.head?_append_of_ne_nil held hne]
  by_cases hs : held.head? = some replyStart
  · rw [if_pos hs] at h ⊢
    split at h
    · cases h
    · cases h
    · rename_i total ht
      split at h
      · cases h
      · rename_i hl
        cases h
        have hl' : ¬ (held ++ later).length < size := by rw [List.length_append]; omega
        rw [Reply.packetLen_append later ht]
        simp only [if_neg hl', List.take_append_of_le_length (show size ≤ held.length by omega)]
        exact ⟨trivial, by omega⟩
  · rw [if_neg hs] at h ⊢
    split at h
    · cases h
    · cases h
    · rename_i header ht
      split at h
      · cases h
      · rename_i hl
        cases h
        have hl' : ¬ (held ++ later).length < header.packetLen := by
          rw [List.length_append]; omega
        rw [FrameHeader.parse_append later ht]
        simp only [if_neg hl',
          List.take_append_of_le_length (show header.packetLen ≤ held.length by omega)]
        exact ⟨trivial, by omega⟩

/-- A start byte that was noise stays noise. -/
theorem verdict_append_of_unlikely {limit : Nat} {held : Bytes} (later : Bytes)
    (h : verdict limit held = .unlikely) : verdict limit (held ++ later) = .unlikely := by
  have hne : held ≠ [] := by
    rintro rfl
    cases h
  unfold verdict at h ⊢
  rw [List.head?_append_of_ne_nil held hne]
  by_cases hs : held.head? = some replyStart
  · rw [if_pos hs] at h ⊢
    split at h
    · rename_i ht
      rw [Reply.packetLen_append_error later ht]
    · cases h
    · split at h <;> cases h
  · rw [if_neg hs] at h ⊢
    split at h
    · cases h
    · rename_i e hc ht
      rw [FrameHeader.parse_append_error later ht hc]
      cases e with
      | cursor c => exact absurd rfl (hc c)
      | _ => rfl
    · split at h <;> cases h

/-! ## The next packet -/

/-- What taking the next packet gives, the noise aside. -/
def Next.taken (n : Next) : Option Packet × Bytes := (n.packet, n.rest)

variable {limit : Nat} {buffer tail : Bytes} {start : UInt8}

theorem taken_of_noise (h : buffer.dropWhile (!isStart ·) = []) :
    (next limit buffer).taken = (none, []) := by
  unfold next
  split
  · rfl
  · rename_i hc
    rw [h] at hc
    cases hc

theorem taken_of_start (h : buffer.dropWhile (!isStart ·) = start :: tail) :
    (next limit buffer).taken =
      match verdict limit (start :: tail) with
      | .wait => (none, start :: tail)
      | .take packet size => (some packet, (start :: tail).drop size)
      | .unlikely => (next limit tail).taken := by
  rw [next]
  split
  · rename_i hn
    rw [h] at hn
    cases hn
  · rename_i hc
    rw [h] at hc
    cases hc
    cases verdict limit (start :: tail) <;> rfl

theorem taken_of_wait (h : buffer.dropWhile (!isStart ·) = start :: tail)
    (hv : verdict limit (start :: tail) = .wait) :
    (next limit buffer).taken = (none, start :: tail) := by
  rw [taken_of_start h, hv]

theorem taken_of_take {packet : Packet} {size : Nat}
    (h : buffer.dropWhile (!isStart ·) = start :: tail)
    (hv : verdict limit (start :: tail) = .take packet size) :
    (next limit buffer).taken = (some packet, (start :: tail).drop size) := by
  rw [taken_of_start h, hv]

theorem taken_of_unlikely (h : buffer.dropWhile (!isStart ·) = start :: tail)
    (hv : verdict limit (start :: tail) = .unlikely) :
    (next limit buffer).taken = (next limit tail).taken := by
  rw [taken_of_start h, hv]

/-- Noise before a start byte makes no difference. -/
theorem taken_congr {other : Bytes}
    (h : buffer.dropWhile (!isStart ·) = other.dropWhile (!isStart ·)) :
    (next limit buffer).taken = (next limit other).taken := by
  cases ho : other.dropWhile (!isStart ·) with
  | nil => rw [taken_of_noise (h.trans ho), taken_of_noise ho]
  | cons start tail => rw [taken_of_start (h.trans ho), taken_of_start ho]

theorem dropWhile_append_of_cons (later : Bytes)
    (h : buffer.dropWhile (!isStart ·) = start :: tail) :
    (buffer ++ later).dropWhile (!isStart ·) = start :: (tail ++ later) := by
  rw [List.dropWhile_append, h]
  rfl

theorem dropWhile_self_of_cons (h : buffer.dropWhile (!isStart ·) = start :: tail) :
    (start :: tail).dropWhile (!isStart ·) = start :: tail := by
  rw [← h, List.dropWhile_idempotent]

theorem length_tail_lt (h : buffer.dropWhile (!isStart ·) = start :: tail) :
    tail.length < buffer.length := by
  have hl := (List.dropWhile_suffix (!isStart ·) (l := buffer)).length_le
  rw [h, List.length_cons] at hl
  exact hl

/-- The next packet of a longer stream: a packet that was there is still the next one, and if there
was none, the bytes that were kept are all that matters of those there were. -/
theorem taken_append (limit : Nat) (buffer later : Bytes) :
    (next limit (buffer ++ later)).taken =
      match (next limit buffer).taken with
      | (some packet, rest) => (some packet, rest ++ later)
      | (none, rest) => (next limit (rest ++ later)).taken := by
  induction hn : buffer.length using Nat.strongRecOn generalizing buffer with
  | ind n ih =>
    cases hd : buffer.dropWhile (!isStart ·) with
    | nil =>
      rw [taken_of_noise hd]
      exact taken_congr (by rw [List.dropWhile_append, hd]; rfl)
    | cons start tail =>
      have hd' := dropWhile_append_of_cons later hd
      cases hv : verdict limit (start :: tail) with
      | wait =>
        rw [taken_of_wait hd hv]
        exact taken_congr
          (hd'.trans (dropWhile_append_of_cons later (dropWhile_self_of_cons hd)).symm)
      | take packet size =>
        obtain ⟨hv', hl⟩ := verdict_append_of_take later hv
        rw [taken_of_take hd hv, taken_of_take hd' hv', ← List.cons_append,
          List.drop_append_of_le_length hl]
      | unlikely =>
        rw [taken_of_unlikely hd hv, taken_of_unlikely hd' (verdict_append_of_unlikely later hv)]
        exact ih tail.length (hn ▸ length_tail_lt hd) tail rfl

theorem taken_append_of_some {rest : Bytes} {packet : Packet} (later : Bytes)
    (h : (next limit buffer).taken = (some packet, rest)) :
    (next limit (buffer ++ later)).taken = (some packet, rest ++ later) := by
  rw [taken_append, h]

theorem taken_append_of_none {rest : Bytes} (later : Bytes)
    (h : (next limit buffer).taken = (none, rest)) :
    (next limit (buffer ++ later)).taken = (next limit (rest ++ later)).taken := by
  rw [taken_append, h]

/-! ## All packets -/

/-- The packets of a stream, and the bytes that are left of it. -/
structure Framing where
  packets : List Packet
  rest : Bytes
  deriving DecidableEq, Repr

/-- Takes packets until none is complete. -/
def framing (limit : Nat) (buffer : Bytes) : Framing :=
  match _h : next limit buffer with
  | ⟨_, none, rest⟩ => ⟨[], rest⟩
  | ⟨_, some packet, rest⟩ =>
    let f := framing limit rest
    { f with packets := packet :: f.packets }
termination_by buffer.length
decreasing_by
  have := length_rest_lt_of_packet (congrArg Next.packet _h)
  rwa [_h] at this

theorem framing_of_none {rest : Bytes} (h : (next limit buffer).taken = (none, rest)) :
    framing limit buffer = ⟨[], rest⟩ := by
  rw [framing]
  split
  · rename_i hn
    rw [hn] at h
    cases h
    rfl
  · rename_i hn
    rw [hn] at h
    cases h

theorem framing_of_some {rest : Bytes} {packet : Packet}
    (h : (next limit buffer).taken = (some packet, rest)) :
    framing limit buffer = ⟨packet :: (framing limit rest).packets, (framing limit rest).rest⟩ := by
  rw [framing]
  split
  · rename_i hn
    rw [hn] at h
    cases h
  · rename_i hn
    rw [hn] at h
    cases h
    rfl

theorem length_lt_of_taken {rest : Bytes} {packet : Packet}
    (h : (next limit buffer).taken = (some packet, rest)) : rest.length < buffer.length := by
  obtain ⟨hp, rfl⟩ := Prod.mk.inj h
  exact length_rest_lt_of_packet hp

/-- Induction along the packets of a stream. -/
@[elab_as_elim]
theorem framing_induction {motive : Bytes → Prop} (limit : Nat) (buffer : Bytes)
    (last : ∀ buffer rest, (next limit buffer).taken = (none, rest) → motive buffer)
    (packet : ∀ buffer packet rest, (next limit buffer).taken = (some packet, rest) →
      motive rest → motive buffer) : motive buffer := by
  induction hn : buffer.length using Nat.strongRecOn generalizing buffer with
  | ind n ih =>
    cases ht : (next limit buffer).taken with
    | mk taken rest =>
      cases taken with
      | none => exact last buffer rest ht
      | some p =>
        exact packet buffer p rest ht (ih rest.length (hn ▸ length_lt_of_taken ht) rest rfl)

/-- The framing is told by the next packet. -/
theorem framing_congr {other : Bytes}
    (h : (next limit buffer).taken = (next limit other).taken) :
    framing limit buffer = framing limit other := by
  cases ht : (next limit other).taken with
  | mk packet rest =>
    cases packet with
    | none => rw [framing_of_none (h.trans ht), framing_of_none ht]
    | some packet => rw [framing_of_some (h.trans ht), framing_of_some ht]

/-- The packets of a stream are those of its beginning, then those of what the beginning left
followed by the rest of the stream. -/
theorem framing_append (limit : Nat) (buffer later : Bytes) :
    framing limit (buffer ++ later) =
      ⟨(framing limit buffer).packets ++
          (framing limit ((framing limit buffer).rest ++ later)).packets,
        (framing limit ((framing limit buffer).rest ++ later)).rest⟩ := by
  induction buffer using framing_induction limit with
  | last buffer rest ht =>
    rw [framing_of_none ht, List.nil_append]
    exact framing_congr (taken_append_of_none later ht)
  | packet buffer packet rest ht ih =>
    rw [framing_of_some ht, framing_of_some (taken_append_of_some later ht), ih]
    rfl

@[simp] theorem framing_nil (limit : Nat) : framing limit [] = ⟨[], []⟩ :=
  framing_of_none (taken_of_noise rfl)

/-- Nothing more is to be taken from what is left. -/
theorem framing_rest (limit : Nat) (buffer : Bytes) :
    framing limit (framing limit buffer).rest = ⟨[], (framing limit buffer).rest⟩ := by
  induction buffer using framing_induction limit with
  | last buffer rest ht =>
    -- what is kept without a packet is the buffer from its start byte on
    have h := framing_congr (taken_append_of_none [] ht)
    rw [List.append_nil, List.append_nil, framing_of_none ht] at h
    rw [framing_of_none ht]
    exact h.symm
  | packet buffer packet rest ht ih =>
    rw [framing_of_some ht]
    exact ih

end Packet

end RadarHost
