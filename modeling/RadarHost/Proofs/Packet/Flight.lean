import RadarHost.Proofs.Packet.RoundTrip

/-!
# Frame packets in flight

Of frame packets that are on their way one after the other, a reader holds the first bytes and the
line the others. A part of the first packet is kept as it is (`taken_of_part`), and all of it is
taken (`take_of_flight`). A reply sent after them is the next reply, and ends the stream
(`wanted_reply_of_flight`).
-/

namespace RadarHost

namespace Packet

variable {limit : Nat} {f : Frame} {fs : List Frame} {held later tail : Bytes}

theorem stream_cons (f : Frame) (fs : List Frame) : stream (f :: fs) = f.packet ++ stream fs := rfl

theorem stream_concat (fs : List Frame) (f : Frame) :
    stream (fs ++ [f]) = stream fs ++ f.packet := by
  rw [stream, List.flatMap_append, List.flatMap_singleton]
  rfl

/-- The places to which a reader comes are the beginning of a frame packet and, after it, those of
what follows. -/
theorem Reaches.of_packet {place : Bytes} (h : f.Fits limit)
    (hr : Reaches limit place (f.packet ++ tail)) :
    place = f.packet ++ tail ∨ Reaches limit place tail := by
  obtain ⟨rest, hrest⟩ : ∃ rest, f.packet ++ tail = frameStart :: rest := ⟨_, rfl⟩
  have hv := verdict_packet h tail
  have hdrop : (frameStart :: rest).drop f.packet.length = tail := by
    rw [← hrest, List.drop_left]
  rw [hrest] at hr hv ⊢
  cases hr with
  | here => exact .inl rfl
  | noise hs => cases hs
  | unlikely _ hv' => cases hv.symm.trans hv'
  | take _ hv' hr =>
    cases hv.symm.trans hv'
    exact .inr (hdrop ▸ hr)

/-- A part of a frame packet is kept until the others of its bytes have come. -/
theorem taken_of_part (h : f.Fits limit) (hsplit : held ++ later = f.packet ++ tail)
    (hl : held.length < f.packet.length) : (next limit held).taken = (none, held) := by
  have hlen := congrArg List.length hsplit
  rw [List.length_append, List.length_append] at hlen
  cases ht : (next limit held).taken with
  | mk packet rest =>
    cases packet with
    | some packet =>
      have htaken := taken_append_of_some later ht
      rw [hsplit, taken_packet h] at htaken
      obtain rfl : tail = rest ++ later := congrArg Prod.snd htaken
      rw [List.length_append] at hlen
      omega
    | none =>
      have hr := (reaches_rest limit held).append later
      rw [framing_of_none ht, hsplit] at hr
      obtain hplace | hr := hr.of_packet h
      · exact congrArg (none, ·) (List.append_cancel_right (hplace.trans hsplit.symm))
      · have := hr.length_le
        rw [List.length_append] at this
        omega

/-- What a reader does with frame packets in flight when a frame is wanted: it takes the first one
if it holds all of it, and else keeps what it holds. -/
theorem take_of_flight {r : PacketReader} (h : f.Fits r.limit)
    (hflight : r.bytes ++ later = stream (f :: fs)) :
    ((r.take frame?).packet = some (f.header, f.packet) ∧
        (r.take frame?).reader.bytes ++ later = stream fs) ∨
      ((r.take frame?).packet = none ∧ (r.take frame?).reader.bytes = r.bytes ∧ later ≠ []) := by
  rw [PacketReader.take_packet, PacketReader.bytes_take]
  by_cases hl : r.bytes.length < f.packet.length
  · have ht : (takeUntil frame? r.limit r.bytes).taken = _ :=
      wanted_of_none (taken_of_part h hflight hl)
    refine .inr ⟨congrArg Prod.fst ht, congrArg Prod.snd ht, fun hnil => ?_⟩
    have := congrArg List.length hflight
    rw [hnil, stream_cons, List.append_nil, List.length_append] at this
    omega
  · obtain ⟨rest, hrest⟩ : f.packet <+: r.bytes :=
      List.prefix_of_prefix_length_le ⟨stream fs, rfl⟩ ⟨later, hflight⟩ (Nat.le_of_not_lt hl)
    have ht : (takeUntil frame? r.limit (f.packet ++ rest)).taken = _ :=
      wanted_of_some (taken_packet h rest)
    rw [hrest] at ht
    refine .inl ⟨congrArg Prod.fst ht, ?_⟩
    rw [show (takeUntil frame? r.limit r.bytes).rest = rest from congrArg Prod.snd ht]
    rw [← hrest, stream_cons, List.append_assoc] at hflight
    exact List.append_cancel_left hflight

/-- Of frame packets in flight and a reply after them, the reply is the next one, and nothing is
left after it. -/
theorem wanted_reply_of_flight {r : Reply} (hr : r.Fits) (h : ∀ f ∈ fs, f.Fits limit) :
    (takeUntil reply? limit (stream fs ++ r.packet)).taken = (some r.packet, []) := by
  induction fs with
  | nil =>
    have hv : verdict limit (r.packet ++ []) = .take (.reply r.packet) r.packet.length :=
      @Message.verdict_bytes limit (.reply r) hr []
    have ht := taken_of_verdict hv
    rw [List.drop_left, List.append_nil] at ht
    exact wanted_of_some ht
  | cons f fs ih =>
    obtain ⟨hf, hfs⟩ := List.forall_mem_cons.1 h
    rw [stream_cons, List.append_assoc, wanted_of_some (taken_packet hf _)]
    exact ih hfs

end Packet

end RadarHost
