import RadarHost.Proofs.Packet.Grammar
import RadarHost.Proofs.Packet.Resync
import RadarHost.Proofs.Packet.Taking

/-!
# What is kept when no packet is found

Looking for a packet drops all bytes that cannot begin one. So when none is found, what is kept is
nothing, or the beginning of one packet whose end is still missing, which is shorter than the
longest packet there is (`kept_of_none`). The search for a wanted packet is a row of such looks
(`looks`): each of them keeps no more than there was, and what the last one keeps is what the search
leaves (`exists_last_look`).
-/

namespace RadarHost

namespace Packet

variable {limit : Nat} {buffer held rest : Bytes} {packet : Packet}

/-! ## Packets that are not all there -/

/-- The length of the longest packet, for frame payloads of at most `limit` bytes. -/
def longest (limit : Nat) : Nat :=
  max (Reply.headerSize + maxReplyPayload + checksumSize)
    (FrameHeader.size + checksumSize + FrameHeader.maxPayload limit)

theorem reply_le_longest (limit : Nat) :
    Reply.headerSize + maxReplyPayload + checksumSize ≤ longest limit := Nat.le_max_left ..

theorem frame_le_longest (limit : Nat) :
    FrameHeader.size + checksumSize + FrameHeader.maxPayload limit ≤ longest limit :=
  Nat.le_max_right ..

theorem total_le_longest {total : Nat} (h : Reply.packetLen held = .ok (some total)) :
    total ≤ longest limit := by
  obtain ⟨_, _, _, _, _, _, _, -, hmax, rfl⟩ := Reply.exists_of_packetLen h
  have hle := reply_le_longest limit
  omega

theorem packetLen_le_longest {header : FrameHeader}
    (h : FrameHeader.parse held limit = .ok header) : header.packetLen ≤ longest limit := by
  obtain ⟨_, _, _, _, _, _, _, _, _, -, hmax, -, hlen⟩ := FrameHeader.exists_of_parse h
  have hpayload : header.payloadLen.toNat ≤ FrameHeader.maxPayload limit := by
    rw [hlen, UInt32.toNat_ofNat']
    exact (Nat.mod_le ..).trans hmax
  have hle := frame_le_longest limit
  unfold FrameHeader.packetLen
  omega

/-- Bytes that are waited with are fewer than a packet may have. -/
theorem length_lt_of_wait (hv : verdict limit held = .wait) : held.length < longest limit := by
  unfold verdict at hv
  split at hv
  · split at hv
    · cases hv
    · rename_i hnone
      have hlt := Reply.length_lt_of_packetLen_none hnone
      exact (hlt.trans (by decide)).trans_le (reply_le_longest limit)
    · rename_i total hsome
      split at hv
      · rename_i hlt
        exact hlt.trans_le (total_le_longest hsome)
      · cases hv
  · split at hv
    · rename_i hcursor
      have hlt := FrameHeader.length_lt_of_parse_cursor hcursor
      exact (hlt.trans (by decide)).trans_le (reply_le_longest limit)
    · cases hv
    · rename_i header hparse
      split at hv
      · rename_i hlt
        exact hlt.trans_le (packetLen_le_longest hparse)
      · cases hv

/-- Bytes that may be kept when no packet is found: none, or some that begin like a packet and are
fewer than a packet may have. -/
structure Kept (limit : Nat) (held : Bytes) : Prop where
  start : held = [] ∨ held.head? = some replyStart ∨ held.head? = some frameStart
  short : held.length < longest limit

theorem kept_nil (limit : Nat) : Kept limit [] where
  start := .inl rfl
  short := Nat.lt_of_lt_of_le (by decide) (reply_le_longest limit)

/-- When no packet is found, all bytes have been dropped that cannot begin one. -/
theorem kept_of_none (h : (next limit buffer).taken = (none, rest)) : Kept limit rest := by
  induction buffer using reader_induction limit with
  | nil =>
    rw [taken_of_noise rfl] at h
    cases h
    exact kept_nil limit
  | noise b tail hs ih => exact ih (taken_cons_of_noise hs ▸ h)
  | wait b tail hs hv =>
    rw [taken_cons_of_wait hs hv] at h
    cases h
    refine ⟨.inr ?_, length_lt_of_wait hv⟩
    simpa [isStart] using hs
  | unlikely b tail hs hv ih => exact ih (taken_cons_of_unlikely hs hv ▸ h)
  | take b tail packet size hs hv ih =>
    rw [taken_cons_of_take hs hv] at h
    cases h

/-! ## The looks of a search -/

section

variable {π : Type} (wanted : Packet → Option π)

/-- The looks for a packet by which a wanted one is searched, in order: the packet that each of them
finds, and the bytes that it keeps. -/
def looks (limit : Nat) (buffer : Bytes) : List (Option Packet × Bytes) :=
  match _h : next limit buffer with
  | ⟨_, none, rest⟩ => [(none, rest)]
  | ⟨_, some packet, rest⟩ =>
    (some packet, rest) ::
      match wanted packet with
      | some _ => []
      | none => looks limit rest
termination_by buffer.length
decreasing_by
  have := length_rest_lt_of_packet (congrArg Next.packet _h)
  rwa [_h] at this

theorem looks_of_none (h : (next limit buffer).taken = (none, rest)) :
    looks wanted limit buffer = [(none, rest)] := by
  rw [looks]
  split
  · rename_i hn
    rw [hn] at h
    cases h
    rfl
  · rename_i hn
    rw [hn] at h
    cases h

theorem looks_of_some (h : (next limit buffer).taken = (some packet, rest)) :
    looks wanted limit buffer =
      (some packet, rest) ::
        match wanted packet with
        | some _ => []
        | none => looks wanted limit rest := by
  rw [looks]
  split
  · rename_i hn
    rw [hn] at h
    cases h
  · rename_i hn
    rw [hn] at h
    cases h
    rfl

/-- What a search finds and leaves is what its last look finds and keeps. -/
theorem exists_last_look (limit : Nat) (buffer : Bytes) :
    ∃ found, (looks wanted limit buffer).getLast? =
        some (found, (takeUntil wanted limit buffer).rest) ∧
      (takeUntil wanted limit buffer).packet = found.bind wanted ∧
      (found = none ↔ (takeUntil wanted limit buffer).packet = none) := by
  induction buffer using framing_induction limit with
  | last buffer rest ht =>
    obtain ⟨hp, hr⟩ := Prod.mk.inj (show (takeUntil wanted limit buffer).taken = _ from
      wanted_of_none ht)
    rw [looks_of_none wanted ht, hp, hr]
    exact ⟨none, rfl, rfl, fun _ => rfl, fun _ => rfl⟩
  | packet buffer packet rest ht ih =>
    have hw : (takeUntil wanted limit buffer).taken = _ := wanted_of_some ht
    rw [looks_of_some wanted ht]
    cases hp : wanted packet with
    | some p =>
      rw [hp] at hw
      obtain ⟨hp', hr⟩ := Prod.mk.inj hw
      rw [hp', hr]
      exact ⟨some packet, rfl, hp.symm, nofun, nofun⟩
    | none =>
      rw [hp] at hw
      obtain ⟨hp', hr⟩ := Prod.mk.inj hw
      obtain ⟨found, hlast, hfound⟩ := ih
      rw [hp', hr]
      exact ⟨found, by rw [List.getLast?_cons, hlast]; rfl, hfound⟩

/-- No look of a search keeps more than there was, and one that finds nothing keeps what may be
kept. -/
theorem kept_of_mem_looks :
    ∀ look ∈ looks wanted limit buffer,
      look.2.length ≤ buffer.length ∧ (look.1 = none → Kept limit look.2) := by
  induction buffer using framing_induction limit with
  | last buffer rest ht =>
    rw [looks_of_none wanted ht]
    refine List.forall_mem_singleton.2 ⟨?_, fun _ => kept_of_none ht⟩
    exact (took_of_next ht).suffix.length_le
  | packet buffer packet rest ht ih =>
    have hle := (took_of_next ht).suffix.length_le
    rw [looks_of_some wanted ht]
    refine List.forall_mem_cons.2 ⟨⟨hle, nofun⟩, ?_⟩
    cases wanted packet with
    | some p => exact List.forall_mem_nil _
    | none => exact fun look hlook => ⟨(ih look hlook).1.trans hle, (ih look hlook).2⟩

end

end Packet

end RadarHost
