import RadarHost.Packet.Reader
import RadarHost.Proofs.Packet.Framing

/-!
# Reassembly from chunks

A reader is given a stream chunk by chunk and gives up, after each chunk, the packets that are
complete (`feed`). `drain` takes those packets: it is the framing of the bytes that the reader
holds (`drain_packets`, `bytes_drain`). A drained reader that is fed has taken the framing of all
it was given (`feed_of_drained`), so that the cuts between the chunks make no difference
(`feed_flatten`).
-/

namespace RadarHost

namespace PacketReader

/-! ## One packet -/

theorem takeUntil_some (limit : Nat) (buffer : Bytes) :
    ((Packet.takeUntil some limit buffer).packet, (Packet.takeUntil some limit buffer).rest) =
      (Packet.next limit buffer).taken := by
  rw [Packet.takeUntil]
  split
  · rename_i hn
    rw [hn]
    rfl
  · rename_i hn
    rw [hn]
    rfl

/-- A reader that any packet is wanted of gives up the next one of its bytes. -/
theorem take_some (r : PacketReader) :
    ((r.take some).packet, (r.take some).reader.bytes) = (Packet.next r.limit r.bytes).taken := by
  rw [take_packet, bytes_take, takeUntil_some]

theorem length_bytes_take_lt {r : PacketReader} {packet : Packet}
    (h : (r.take some).packet = some packet) :
    (r.take some).reader.bytes.length < r.bytes.length := by
  have ht := (r.take_some).symm
  rw [h] at ht
  exact Packet.length_lt_of_taken ht

/-! ## All packets -/

/-- Takes packets, of whatever kind, until none is complete. -/
def drain (r : PacketReader) : List Packet × PacketReader :=
  match _h : (r.take some).packet with
  | none => ([], (r.take some).reader)
  | some packet =>
    let (packets, r) := (r.take some).reader.drain
    (packet :: packets, r)
termination_by r.bytes.length
decreasing_by exact length_bytes_take_lt _h

theorem drain_of_none {r : PacketReader} (h : (r.take some).packet = none) :
    r.drain = ([], (r.take some).reader) := by
  rw [drain]
  split
  · rfl
  · rename_i hs
    rw [h] at hs
    cases hs

theorem drain_of_some {r : PacketReader} {packet : Packet}
    (h : (r.take some).packet = some packet) :
    r.drain = (packet :: (r.take some).reader.drain.1, (r.take some).reader.drain.2) := by
  rw [drain]
  split
  · rename_i hs
    rw [h] at hs
    cases hs
  · rename_i hs
    rw [h] at hs
    cases hs
    rfl

/-- Draining a reader is the framing of its bytes, under the limit that the reader keeps. -/
theorem drain_eq_framing (r : PacketReader) :
    r.drain.1 = (Packet.framing r.limit r.bytes).packets ∧
      r.drain.2.bytes = (Packet.framing r.limit r.bytes).rest ∧ r.drain.2.limit = r.limit := by
  induction hn : r.bytes.length using Nat.strongRecOn generalizing r with
  | ind n ih =>
    have ht := r.take_some.symm
    cases hp : (r.take some).packet with
    | none =>
      rw [hp] at ht
      rw [drain_of_none hp, Packet.framing_of_none ht]
      exact ⟨rfl, rfl, limit_take some r⟩
    | some packet =>
      rw [hp] at ht
      obtain ⟨hpk, hb, hl⟩ := ih _ (hn ▸ length_bytes_take_lt hp) (r.take some).reader rfl
      rw [limit_take] at hpk hb hl
      rw [drain_of_some hp, Packet.framing_of_some ht, hpk, hb, hl]
      exact ⟨rfl, rfl, rfl⟩

theorem drain_packets (r : PacketReader) :
    r.drain.1 = (Packet.framing r.limit r.bytes).packets := r.drain_eq_framing.1

@[simp] theorem bytes_drain (r : PacketReader) :
    r.drain.2.bytes = (Packet.framing r.limit r.bytes).rest := r.drain_eq_framing.2.1

@[simp] theorem limit_drain (r : PacketReader) : r.drain.2.limit = r.limit :=
  r.drain_eq_framing.2.2

@[simp] theorem limit_append (r : PacketReader) (bytes : Bytes) :
    (r.append bytes).limit = r.limit := rfl

/-! ## Chunks -/

/-- Gives a reader chunks one by one, and after each takes the packets that are complete. -/
def feed (r : PacketReader) : List Bytes → List Packet × PacketReader
  | [] => ([], r)
  | chunk :: chunks =>
    let (packets, r) := (r.append chunk).drain
    let (later, r) := r.feed chunks
    (packets ++ later, r)

theorem feed_cons (r : PacketReader) (chunk : Bytes) (chunks : List Bytes) :
    r.feed (chunk :: chunks) =
      ((r.append chunk).drain.1 ++ ((r.append chunk).drain.2.feed chunks).1,
        ((r.append chunk).drain.2.feed chunks).2) := rfl

/-- A reader without a packet to give has, once it was fed, given the framing of the bytes that it
held and all that it was fed. -/
theorem feed_of_drained (chunks : List Bytes) :
    ∀ r : PacketReader, Packet.framing r.limit r.bytes = ⟨[], r.bytes⟩ →
      (r.feed chunks).1 = (Packet.framing r.limit (r.bytes ++ chunks.flatten)).packets ∧
      (r.feed chunks).2.bytes = (Packet.framing r.limit (r.bytes ++ chunks.flatten)).rest := by
  induction chunks with
  | nil =>
    intro r hr
    rw [List.flatten_nil, List.append_nil, hr]
    exact ⟨rfl, rfl⟩
  | cons chunk chunks ih =>
    intro r _
    have hd : Packet.framing (r.append chunk).drain.2.limit (r.append chunk).drain.2.bytes =
        ⟨[], (r.append chunk).drain.2.bytes⟩ := by
      rw [limit_drain, bytes_drain]
      exact Packet.framing_rest _ _
    obtain ⟨hp, hb⟩ := ih (r.append chunk).drain.2 hd
    rw [limit_drain, bytes_drain, limit_append, bytes_append] at hp hb
    rw [feed_cons, hp, hb, drain_packets, limit_append, bytes_append, List.flatten_cons,
      ← List.append_assoc, Packet.framing_append r.limit (r.bytes ++ chunk)]
    exact ⟨rfl, rfl⟩

/-- Reassembly does not depend on how the stream is cut up: a fresh reader that is fed chunks
gives up the packets, and is left with the bytes, of one that is given all of them at once. -/
theorem feed_flatten (limit : Nat) (chunks : List Bytes) :
    ((empty limit).feed chunks).1 = ((empty limit).append chunks.flatten).drain.1 ∧
      ((empty limit).feed chunks).2.bytes =
        ((empty limit).append chunks.flatten).drain.2.bytes := by
  have he : Packet.framing (empty limit).limit (empty limit).bytes = ⟨[], (empty limit).bytes⟩ :=
    Packet.framing_nil limit
  obtain ⟨hp, hb⟩ := feed_of_drained chunks (empty limit) he
  rw [hp, hb, drain_packets, bytes_drain, limit_append, bytes_append]
  exact ⟨rfl, rfl⟩

end PacketReader

end RadarHost
