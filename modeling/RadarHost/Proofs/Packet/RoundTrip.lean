import RadarHost.Proofs.Packet.Reassembly
import RadarHost.Proofs.Packet.Resync

/-!
# Reassembly undoes encoding

A board sends replies and frames, each as its encoding says, and noise may stand before, between and
after them. A reader takes an encoded packet off the stream whatever its payload holds, since it
believes the length in the header (`Message.verdict_bytes`), and skips noise, which begins no packet
(`taken_noise_append`). So the framing of such a stream is the list of the packets that were sent
(`framing_sent`), in whatever chunks a reader gets it (`feed_sent`).
-/

namespace RadarHost

/-! ## Encoded replies -/

namespace Reply

variable {r : Reply}

/-- The packet of a reply. -/
def packet (r : Reply) : Bytes :=
  Packet.withChecksum (Packet.replyStart :: r.command ::
    (Bytes.ofNat 2 r.status.toNat ++ Bytes.ofNat 2 r.payload.length ++ r.payload))

/-- A reply whose payload is not too long for a packet. -/
def Fits (r : Reply) : Prop := r.payload.length ≤ Packet.maxReplyPayload

/-- The packet is what encoding the reply gives. -/
theorem encode_eq (h : r.Fits) : r.encode = .ok r.packet := by
  unfold encode
  rw [if_neg (Nat.not_lt_of_le h)]
  rfl

theorem length_packet (r : Reply) :
    r.packet.length = headerSize + r.payload.length + Packet.checksumSize := by
  unfold packet Packet.withChecksum headerSize
  simp only [List.length_append, List.length_cons, Bytes.length_ofNat]
  omega

/-- The header announces the length of the packet. -/
theorem packetLen_packet (h : r.Fits) (later : Bytes) :
    packetLen (r.packet ++ later) = .ok (some r.packet.length) := by
  have hl : Bytes.toNat (Bytes.ofNat 2 r.payload.length) = r.payload.length :=
    Bytes.toNat_ofNat (lt_of_le_of_lt h (by decide))
  let l := Bytes.toNat (Bytes.ofNat 2 r.payload.length)
  show (if Packet.maxReplyPayload < l then
      Except.error (PacketError.payloadTooLarge l Packet.maxReplyPayload)
    else Except.ok (some (headerSize + l + Packet.checksumSize))) = _
  rw [show l = r.payload.length from hl, if_neg (Nat.not_lt_of_le h), length_packet]

end Reply

/-! ## What a board sends -/

/-- What a board sends in one packet. -/
inductive Message
  | reply (reply : Reply)
  | frame (frame : Frame)
  deriving DecidableEq, Repr

namespace Message

variable {limit : Nat}

/-- The encoding of a message. -/
def encode : Message → Except PacketError Bytes
  | reply r => r.encode
  | frame f => FrameHeader.encode f.flags f.sequence f.payload

/-- The bytes of the packet of a message. -/
def bytes : Message → Bytes
  | reply r => r.packet
  | frame f => f.packet

/-- The packet that a reader is to find in those bytes. -/
def packet : Message → Packet
  | reply r => .reply r.packet
  | frame f => .frame f.header f.packet

/-- A message whose payload is neither too long for a packet nor, if it is a frame, longer than the
reader finds plausible. -/
def Fits (limit : Nat) : Message → Prop
  | reply r => r.Fits
  | frame f => f.Fits limit

instance (limit : Nat) : (m : Message) → Decidable (m.Fits limit)
  | reply r => inferInstanceAs (Decidable (r.payload.length ≤ _))
  | frame f => inferInstanceAs (Decidable (f.payload.length ≤ _))

theorem encode_eq {m : Message} (h : m.Fits limit) : m.encode = .ok m.bytes := by
  cases m with
  | reply r => exact Reply.encode_eq h
  | frame f => exact Frame.encode_eq h

/-- An encoded message is taken for its packet, whatever its payload holds and whatever follows. -/
theorem verdict_bytes {m : Message} (h : m.Fits limit) (later : Bytes) :
    Packet.verdict limit (m.bytes ++ later) = .take m.packet m.bytes.length := by
  cases m with
  | frame f => exact Packet.verdict_packet h later
  | reply r =>
    have hs : (r.packet ++ later).head? = some Packet.replyStart := rfl
    have hl : ¬ (r.packet ++ later).length < r.packet.length := by
      rw [List.length_append]
      omega
    show Packet.verdict limit (r.packet ++ later) = .take (.reply r.packet) r.packet.length
    unfold Packet.verdict
    rw [if_pos hs, Reply.packetLen_packet h]
    dsimp only
    rw [if_neg hl, List.take_left]

end Message

/-! ## Streams -/

namespace Packet

variable {limit : Nat}

/-- Bytes of which none can start a packet. -/
def IsNoise (bytes : Bytes) : Prop := ∀ b ∈ bytes, isStart b = false

instance (bytes : Bytes) : Decidable (IsNoise bytes) := List.decidableBAll _ bytes

theorem dropWhile_noise_append {noise : Bytes} (h : IsNoise noise) (later : Bytes) :
    (noise ++ later).dropWhile (!isStart ·) = later.dropWhile (!isStart ·) :=
  List.dropWhile_append_of_pos fun b hb => by rw [h b hb]; rfl

/-- Noise before a packet makes no difference. -/
theorem taken_noise_append {noise : Bytes} (h : IsNoise noise) (later : Bytes) :
    (next limit (noise ++ later)).taken = (next limit later).taken :=
  taken_congr (dropWhile_noise_append h later)

theorem taken_noise {noise : Bytes} (h : IsNoise noise) :
    (next limit noise).taken = (none, []) :=
  taken_of_noise (by rw [← List.append_nil noise, dropWhile_noise_append h]; rfl)

/-- Messages as they are sent: each after some noise, and noise at the end. -/
def sent (messages : List (Bytes × Message)) (noise : Bytes) : Bytes :=
  (messages.flatMap fun x => x.1 ++ x.2.bytes) ++ noise

/-- The packets of a stream are those that were sent, and nothing is left of it. -/
theorem framing_sent {messages : List (Bytes × Message)} {noise : Bytes}
    (hnoise : IsNoise noise) (h : ∀ x ∈ messages, IsNoise x.1 ∧ x.2.Fits limit) :
    framing limit (sent messages noise) = ⟨messages.map (·.2.packet), []⟩ := by
  induction messages with
  | nil => exact framing_of_none (taken_noise hnoise)
  | cons x messages ih =>
    obtain ⟨⟨hbefore, hfits⟩, hrest⟩ := List.forall_mem_cons.1 h
    have hstream : sent (x :: messages) noise = x.1 ++ (x.2.bytes ++ sent messages noise) := by
      simp only [sent, List.flatMap_cons, List.append_assoc]
    have ht : (next limit (sent (x :: messages) noise)).taken =
        (some x.2.packet, sent messages noise) := by
      rw [hstream, taken_noise_append hbefore,
        taken_of_verdict (Message.verdict_bytes hfits _), List.drop_left]
    rw [framing_of_some ht, ih hrest]
    rfl

end Packet

namespace PacketReader

open Packet

/-- What is encoded and sent is what a fresh reader gives up, in whatever chunks it arrives and
whatever noise stands before, between and after the packets: those packets in order, byte for byte,
frames with their payloads intact; and nothing is left. -/
theorem feed_sent {limit : Nat} {messages : List (Bytes × Message)} {noise : Bytes}
    {chunks : List Bytes} (hnoise : IsNoise noise)
    (h : ∀ x ∈ messages, IsNoise x.1 ∧ x.2.Fits limit)
    (hchunks : chunks.flatten = sent messages noise) :
    ((empty limit).feed chunks).1 = messages.map (·.2.packet) ∧
      ((empty limit).feed chunks).2.bytes = [] ∧
      (∀ x ∈ messages, x.2.encode = .ok x.2.bytes ∧ x.2.packet.bytes = x.2.bytes) ∧
      ∀ f : Frame, .frame f ∈ messages.map Prod.snd →
        .frame f.header f.packet ∈ ((empty limit).feed chunks).1 ∧
          f.header.payload f.packet = .ok f.payload := by
  have hf := framing_sent hnoise h
  obtain ⟨hpackets, hbytes⟩ := feed_of_drained chunks (empty limit) (framing_nil limit)
  rw [hchunks, show (empty limit).bytes ++ sent messages noise = sent messages noise from rfl,
    show (empty limit).limit = limit from rfl, hf] at hpackets hbytes
  refine ⟨hpackets, hbytes, fun x hx => ⟨Message.encode_eq (h x hx).2, ?_⟩, fun f hf => ?_⟩
  · cases x.2 <;> rfl
  · obtain ⟨x, hx, hxf⟩ := List.mem_map.1 hf
    have hfits := (h x hx).2
    rw [hxf] at hfits
    refine ⟨?_, Frame.payload_packet hfits⟩
    rw [hpackets]
    exact List.mem_map.2 ⟨x, hx, by rw [hxf]; rfl⟩

/-- A frame whose payload is a complete reply, and a refusal whose payload is all start bytes: the
first chunk ends inside the header of the frame, and the second one is empty. -/
theorem feed_sent_nested :
    let f : Frame := ⟨9, 1, Reply.packet ⟨0x10, 0, []⟩⟩
    let r : Reply := ⟨0x77, 5, [2, 3, 2]⟩
    let messages : List (Bytes × Message) := [([0xEE, 0], .frame f), ([], .reply r)]
    let stream := sent messages [0xFF]
    let chunks := [stream.take 7, [], stream.drop 7]
    (∀ x ∈ messages, IsNoise x.1 ∧ x.2.Fits 16) ∧ chunks.flatten = stream ∧
      ((empty 16).feed chunks).1 = [.frame f.header f.packet, .reply r.packet] ∧
      ((empty 16).feed chunks).2.bytes = [] ∧ f.header.payload f.packet = .ok f.payload := by
  intro f r messages stream chunks
  have hfits : ∀ x ∈ messages, IsNoise x.1 ∧ x.2.Fits 16 := by decide +kernel
  have hchunks : chunks.flatten = stream := by
    simp only [chunks, List.flatten_cons, List.flatten_nil, List.nil_append, List.append_nil,
      List.take_append_drop]
  obtain ⟨hpackets, hbytes, -, hframes⟩ :=
    feed_sent (show IsNoise [0xFF] by decide) hfits hchunks
  exact ⟨hfits, hchunks, hpackets, hbytes, (hframes f (List.mem_cons_self ..)).2⟩

end PacketReader

end RadarHost
