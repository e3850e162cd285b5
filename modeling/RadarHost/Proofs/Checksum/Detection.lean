import RadarHost.Proofs.Checksum.Residue
import RadarHost.Proofs.Packet.Parsing

/-!
# Damage that the checksum shows

A packet is intact if and only if the register is empty after all of its bytes, those of its
checksum taken most significant first (`foldl_reordered_withChecksum`, `failsChecksum_checkedBody`).
So damage to an intact packet shows whenever its bits leave a residue (`checkedBody_damaged`): in a
frame, whatever the length, an odd number of bits or a burst before the checksum
(`FrameHeader.payload_damaged`), and in a request or a reply up to three bits anywhere but in the
fields that say what the packet is and where it ends (`slight_damage_refused`).
-/

namespace RadarHost

open Packet Bytes Checksum

/-! ## Residues of packets -/

namespace Packet

/-- A packet as the register takes it in: with the last two bytes, which are the checksum, most
significant first. -/
def reordered (packet : Bytes) : Bytes :=
  packet.take (packet.length - checksumSize) ++ (packet.drop (packet.length - checksumSize)).reverse

theorem reordered_perm (packet : Bytes) : (reordered packet).Perm packet := by
  have h := (List.reverse_perm (packet.drop (packet.length - checksumSize))).append_left
    (packet.take (packet.length - checksumSize))
  rwa [List.take_append_drop] at h

theorem damage_reordered {sent heard : Bytes} (h : heard.length = sent.length) :
    damage (reordered sent) (reordered heard) = reordered (damage sent heard) := by
  unfold reordered
  rw [length_damage h, h, damage_append (by simp [h])]
  unfold damage
  rw [List.take_zipWith, List.drop_zipWith, List.reverse_zipWith (by simp [h])]

/-- A result that the checksum of a packet is to blame for. -/
def FailsChecksum {α : Type} (result : Except PacketError α) : Prop :=
  ∃ carried computed, result = .error (.checksumMismatch carried computed)

/-- What the register holds after a packet is made of what the checksum that it carries and that of
its body differ by. -/
theorem foldl_reordered {packet : Bytes} (hlen : checksumSize ≤ packet.length) :
    (reordered packet).foldl absorb start =
      shift^[16] (checksum (packet.take (packet.length - checksumSize)) ^^^
        UInt16.ofNat (Bytes.toNat (packet.drop (packet.length - checksumSize)))) := by
  have hcrc : (packet.drop (packet.length - checksumSize)).length = 2 := by
    rw [List.length_drop, Nat.sub_sub_self hlen]
    rfl
  rw [reordered, List.foldl_append, foldl_reverse_word hcrc]
  rfl

/-- The register is empty after a packet that carries its own checksum, -/
theorem foldl_reordered_withChecksum (body : Bytes) :
    (reordered (withChecksum body)).foldl absorb start = 0 := by
  have hlen : (withChecksum body).length - checksumSize = body.length := by simp [withChecksum]
  have hcrc : (checksum body).toNat < Bytes.capacity checksumSize := (checksum body).toNat_lt
  rw [foldl_reordered (by simp [withChecksum]), hlen, withChecksum, List.take_left,
    List.drop_left, Bytes.toNat_ofNat hcrc, UInt16.ofNat_toNat, UInt16.xor_self,
    iterate_shift_zero]

/-- and after no other. -/
theorem failsChecksum_checkedBody {packet : Bytes} (hlen : checksumSize ≤ packet.length)
    (h : (reordered packet).foldl absorb start ≠ 0) : FailsChecksum (checkedBody packet) := by
  unfold checkedBody
  rw [if_neg (Nat.not_lt_of_le hlen)]
  dsimp only
  split
  · rename_i hcrc
    rw [foldl_reordered hlen, hcrc, UInt16.xor_self, iterate_shift_zero] at h
    exact absurd rfl h
  · exact ⟨_, _, rfl⟩

/-- Damage that leaves a residue shows. -/
theorem checkedBody_damaged {body heard : Bytes}
    (hlen : heard.length = (withChecksum body).length)
    (h : residue (bits (reordered (damage (withChecksum body) heard))) ≠ 0) :
    FailsChecksum (checkedBody heard) := by
  have hsize : checksumSize ≤ heard.length := by
    rw [hlen, withChecksum, List.length_append, length_ofNat]
    exact Nat.le_add_left _ _
  have hre : (reordered heard).length = (reordered (withChecksum body)).length := by
    rw [(reordered_perm _).length_eq, (reordered_perm _).length_eq, hlen]
  refine failsChecksum_checkedBody hsize ?_
  rwa [foldl_heard hre, foldl_reordered_withChecksum, UInt16.zero_xor, damage_reordered hlen]

theorem FailsChecksum.map {α β : Type} {result : Except PacketError α} (h : FailsChecksum result)
    (f : α → β) : FailsChecksum (result.map f) := by
  obtain ⟨carried, computed, rfl⟩ := h
  exact ⟨carried, computed, rfl⟩

/-! ## Which damage leaves a residue -/

theorem count_bits_reordered (damage : Bytes) :
    (bits (reordered damage)).count true = (bits damage).count true :=
  ((reordered_perm damage).flatMap_right bitsOf).count_eq true

theorem mem_bits_of_ne {sent heard : Bytes} (hlen : heard.length = sent.length)
    (hne : heard ≠ sent) : true ∈ bits (damage sent heard) := by
  by_contra h
  exact hne (eq_of_damage hlen h)

theorem eq_replicate_of_bits {bytes : Bytes} (h : true ∉ bits bytes) :
    bytes = List.replicate bytes.length 0 := by
  refine List.eq_replicate_iff.2 ⟨rfl, fun b hb => ?_⟩
  have hbits : true ∉ bitsOf b := fun hmem => h (List.mem_flatMap.2 ⟨b, hb, hmem⟩)
  rw [← UInt8.toNat_inj, ← number_bitsOf, Bits.number_eq_zero_iff.2 hbits]
  rfl

/-- Damage that ends before the checksum is the same in either order. -/
theorem reordered_of_before {damage : Bytes}
    (h : ∀ i, (bits damage)[i]? = some true → i < 8 * (damage.length - checksumSize)) :
    reordered damage = damage := by
  let before := damage.take (damage.length - checksumSize)
  let crc := damage.drop (damage.length - checksumSize)
  have hbits : bits damage = bits before ++ bits crc := by
    rw [← bits_append, List.take_append_drop]
  have hlen : (bits before).length = 8 * (damage.length - checksumSize) := by
    rw [length_bits, List.length_take, Nat.min_eq_left (Nat.sub_le _ _)]
  have hcrc : true ∉ bits crc := by
    intro hmem
    obtain ⟨i, hi⟩ := List.mem_iff_getElem?.1 hmem
    have hplace := h ((bits before).length + i) (by
      rw [hbits, List.getElem?_append_right (Nat.le_add_right _ _), Nat.add_sub_cancel_left, hi])
    omega
  have hrev : crc.reverse = crc := by
    rw [eq_replicate_of_bits hcrc, List.reverse_replicate]
  show before ++ crc.reverse = damage
  rw [hrev, List.take_append_drop]

end Packet

/-! ## Frames -/

/-- Bits were turned over within sixteen in a row, and none after so many bytes. -/
def Bytes.Burst (places : Nat) (sent heard : Bytes) : Prop :=
  ∃ first, ∀ i, (bits (damage sent heard))[i]? = some true →
    first ≤ i ∧ i < first + 16 ∧ i < 8 * places

/-- The payload of a frame packet of whatever length is refused for its checksum when an odd number
of bits was turned over anywhere in the packet, or a burst of them in its header and payload. -/
theorem FrameHeader.payload_damaged {flags : UInt8} {sequence : UInt32}
    {payload packet heard : Bytes} (he : encode flags sequence payload = .ok packet)
    (hlen : heard.length = packet.length) (hne : heard ≠ packet)
    (h : Odd (distance packet heard) ∨ Burst (packet.length - checksumSize) packet heard) :
    ∃ header : FrameHeader,
      (∀ limit later, payload.length ≤ limit → parse (packet ++ later) limit = .ok header) ∧
      FailsChecksum (header.payload heard) := by
  let f : Frame := ⟨sequence, flags, payload⟩
  obtain ⟨hmax, rfl⟩ := Frame.of_encode (f := f) he
  have hfits : f.Fits maxFramePayload := le_min hmax hmax
  have hresidue : residue (bits (reordered (damage f.packet heard))) ≠ 0 := by
    rcases h with hodd | ⟨first, hburst⟩
    · exact residue_ne_zero_of_odd (by rw [count_bits_reordered]; exact hodd)
    · have hbefore : reordered (damage f.packet heard) = damage f.packet heard := by
        refine reordered_of_before fun i hi => ?_
        rw [length_damage hlen]
        exact (hburst i hi).2.2
      rw [hbefore]
      exact residue_ne_zero_of_burst (mem_bits_of_ne hlen hne)
        fun i hi => ⟨(hburst i hi).1, (hburst i hi).2.1⟩
  have hfails : FailsChecksum (checkedBody heard) := checkedBody_damaged hlen hresidue
  refine ⟨f.header, fun limit later hl => ?_, ?_⟩
  · rw [Frame.parse_packet_append hmax]
    exact if_pos hl
  · rw [FrameHeader.payload, if_neg (by rw [hlen, Frame.length_packet hfits]; exact not_not.2 rfl)]
    exact hfails.map _

/-- Sixteen bits in a row turned over in the payload, and one in the checksum. -/
theorem FrameHeader.payload_damaged_sixteen :
    let f : Frame := ⟨9, 1, [2, 3, 2]⟩
    let burst := (f.packet.set 10 0xFD).set 11 0xFC
    let odd := f.packet.modify 14 (· ^^^ 0x80)
    encode 1 9 [2, 3, 2] = .ok f.packet ∧ distance f.packet burst = 16 ∧
      FailsChecksum (f.header.payload burst) ∧ distance f.packet odd = 1 ∧
      FailsChecksum (f.header.payload odd) := by
  intro f burst odd
  have hfits : f.payload.length ≤ maxPayload 3 := by decide
  have he : encode 1 9 [2, 3, 2] = .ok f.packet := Frame.encode_eq hfits
  have hburst : Burst (f.packet.length - checksumSize) f.packet burst := by
    have hbits : ∀ i < 120, (bits (damage f.packet burst))[i]? = some true →
        80 ≤ i ∧ i < 80 + 16 ∧ i < 8 * (f.packet.length - checksumSize) := by decide +kernel
    exact ⟨80, fun i hi => hbits i (List.getElem?_eq_some_iff.1 hi).1 hi⟩
  have hodd : distance f.packet odd = 1 := by decide +kernel
  have hlen : burst.length = f.packet.length ∧ odd.length = f.packet.length := by decide +kernel
  have hne : burst ≠ f.packet ∧ odd ≠ f.packet := by decide +kernel
  obtain ⟨header, hparse, hfails⟩ := payload_damaged he hlen.1 hne.1 (.inr hburst)
  obtain ⟨header', hparse', hfails'⟩ :=
    payload_damaged he hlen.2 hne.2 (.inl (by rw [hodd]; decide))
  have hheader : parse (f.packet ++ []) 3 = .ok f.header := Frame.parse_packet hfits []
  obtain rfl := Except.ok.inj ((hparse 3 [] (by decide)).symm.trans hheader)
  obtain rfl := Except.ok.inj ((hparse' 3 [] (by decide)).symm.trans hheader)
  exact ⟨he, by decide +kernel, hfails, hodd, hfails'⟩

/-! ## Requests and replies -/

/-- Up to three bits were turned over, and none in some places. -/
structure Bytes.SlightDamage (kept : List Nat) (sent heard : Bytes) : Prop where
  length_eq : heard.length = sent.length
  kept_eq : ∀ i ∈ kept, heard[i]? = sent[i]?
  distance_pos : 0 < distance sent heard
  distance_le : distance sent heard ≤ 3

/-- A packet as short as requests and replies shows slight damage wherever it is done. -/
theorem Bytes.SlightDamage.failsChecksum {kept : List Nat} {body heard : Bytes}
    (h : SlightDamage kept (withChecksum body) heard)
    (hlen : (withChecksum body).length ≤ 1032) : FailsChecksum (checkedBody heard) := by
  refine checkedBody_damaged h.length_eq (residue_ne_zero_of_few ?_ ?_ ?_)
  · rw [length_bits, (reordered_perm _).length_eq, length_damage h.length_eq]
    omega
  · rw [count_bits_reordered]
    exact h.distance_pos
  · rw [count_bits_reordered]
    exact h.distance_le

/-- A request that is recognised and whose end is found is refused if its checksum is wrong. -/
theorem Request.parse_of_failsChecksum {r : Request} {heard : Bytes} (h : r.Fits)
    (hlen : heard.length = r.packet.length) (hkept : ∀ i ∈ [0, 2, 3], heard[i]? = r.packet[i]?)
    (hfails : FailsChecksum (checkedBody heard)) (later : Bytes) :
    FailsChecksum (parse (heard ++ later)) := by
  obtain ⟨carried, computed, hbody⟩ := hfails
  rw [length_packet] at hlen
  have hheader : 3 < heard.length := by rw [hlen, headerSize]; omega
  have hall : ¬ (heard ++ later).length < heard.length := by rw [List.length_append]; omega
  have htake : (heard ++ later).take heard.length = heard := List.take_left
  obtain ⟨start, command, l₀, l₁, rest, rfl⟩ :
      ∃ start command l₀ l₁ rest, heard = start :: command :: l₀ :: l₁ :: rest := by
    rcases heard with _ | ⟨start, _ | ⟨command, _ | ⟨l₀, _ | ⟨l₁, rest⟩⟩⟩⟩
    iterate 4 exact absurd hheader (by simp)
    exact ⟨start, command, l₀, l₁, rest, rfl⟩
  obtain rfl : start = requestStart := Option.some.inj (hkept 0 (by decide))
  obtain rfl : l₀ = UInt8.ofNat r.payload.length := Option.some.inj (hkept 2 (by decide))
  obtain rfl : l₁ = UInt8.ofNat (r.payload.length / 256) :=
    Option.some.inj (hkept 3 (by decide))
  refine ⟨carried, computed, ?_⟩
  simp only [List.cons_append] at hall htake ⊢
  unfold parse
  dsimp only
  rw [if_neg (not_not.2 rfl), toNat_lengthField h, if_neg (Nat.not_lt_of_le h), ← hlen,
    if_neg hall, htake, hbody]

/-- A reply that is recognised and whose end is found is refused if its checksum is wrong, whatever
it says of its command and its status. -/
theorem Reply.parse_of_failsChecksum {r : Reply} {heard : Bytes} (h : r.Fits)
    (hlen : heard.length = r.packet.length) (hkept : ∀ i ∈ [0, 4, 5], heard[i]? = r.packet[i]?)
    (hfails : FailsChecksum (checkedBody heard)) (expected : Command) (later : Bytes) :
    FailsChecksum (parse (heard ++ later) expected) := by
  obtain ⟨carried, computed, hbody⟩ := hfails
  rw [length_packet] at hlen
  have hheader : 5 < heard.length := by rw [hlen, headerSize]; omega
  have hall : ¬ (heard ++ later).length < heard.length := by rw [List.length_append]; omega
  have htake : (heard ++ later).take heard.length = heard := List.take_left
  obtain ⟨start, command, s₀, s₁, l₀, l₁, rest, rfl⟩ :
      ∃ start command s₀ s₁ l₀ l₁ rest,
        heard = start :: command :: s₀ :: s₁ :: l₀ :: l₁ :: rest := by
    rcases heard with
      _ | ⟨start, _ | ⟨command, _ | ⟨s₀, _ | ⟨s₁, _ | ⟨l₀, _ | ⟨l₁, rest⟩⟩⟩⟩⟩⟩
    iterate 6 exact absurd hheader (by simp)
    exact ⟨start, command, s₀, s₁, l₀, l₁, rest, rfl⟩
  obtain rfl : start = replyStart := Option.some.inj (hkept 0 (by decide))
  obtain rfl : l₀ = UInt8.ofNat r.payload.length := Option.some.inj (hkept 4 (by decide))
  obtain rfl : l₁ = UInt8.ofNat (r.payload.length / 256) :=
    Option.some.inj (hkept 5 (by decide))
  refine ⟨carried, computed, ?_⟩
  simp only [List.cons_append] at hall htake ⊢
  unfold parse packetLen
  dsimp only
  rw [toNat_lengthField h, if_neg (Nat.not_lt_of_le h), ← hlen]
  dsimp only
  rw [if_neg hall, if_neg (not_not.2 rfl), htake, hbody]

/-- A request or a reply of which one, two or three bits were turned over is refused for its
checksum, unless one of them is in its start byte or its length field: whatever the command, the
status and the payload, and whatever command the reply is to answer. -/
theorem slight_damage_refused :
    (∀ (r : Request) (packet heard later : Bytes), r.encode = .ok packet →
      SlightDamage [0, 2, 3] packet heard → FailsChecksum (Request.parse (heard ++ later))) ∧
    ∀ (r : Reply) (expected : Command) (packet heard later : Bytes), r.encode = .ok packet →
      SlightDamage [0, 4, 5] packet heard →
        FailsChecksum (Reply.parse (heard ++ later) expected) := by
  refine ⟨fun r packet heard later he hd => ?request,
    fun r expected packet heard later he hd => ?reply⟩
  case request =>
    obtain ⟨hfits, rfl⟩ := Request.of_encode he
    have hshort : r.packet.length ≤ 1032 := by
      have hmax : r.payload.length ≤ 1024 := hfits
      rw [Request.length_packet, Request.headerSize, checksumSize]
      omega
    exact Request.parse_of_failsChecksum hfits hd.length_eq hd.kept_eq (hd.failsChecksum hshort)
      later
  case reply =>
    obtain ⟨hfits, rfl⟩ := Reply.of_encode he
    have hshort : r.packet.length ≤ 1032 := by
      have hmax : r.payload.length ≤ 1024 := hfits
      rw [Reply.length_packet, Reply.headerSize, checksumSize]
      omega
    exact Reply.parse_of_failsChecksum hfits hd.length_eq hd.kept_eq (hd.failsChecksum hshort)
      expected later

/-- A request with two bits of its payload turned over and one of its checksum, and a reply with one
each of its command, its status and its checksum. -/
theorem slight_damage_refused_three :
    let request : Request := ⟨.getBoardInfo, [2, 3]⟩
    let reply : Reply := ⟨0x10, 0, [7]⟩
    let heard := (request.packet.modify 5 (· ^^^ 0x11)).modify 7 (· ^^^ 0x80)
    let heard' := ((reply.packet.modify 1 (· ^^^ 1)).modify 2 (· ^^^ 4)).modify 8 (· ^^^ 0x80)
    distance request.packet heard = 3 ∧ FailsChecksum (Request.parse (heard ++ [])) ∧
      distance reply.packet heard' = 3 ∧
      FailsChecksum (Reply.parse (heard' ++ []) .getBoardInfo) := by
  intro request reply heard heard'
  have hd : SlightDamage [0, 2, 3] request.packet heard :=
    ⟨by decide +kernel, by decide +kernel, by decide +kernel, by decide +kernel⟩
  have hd' : SlightDamage [0, 4, 5] reply.packet heard' :=
    ⟨by decide +kernel, by decide +kernel, by decide +kernel, by decide +kernel⟩
  have he : request.encode = .ok request.packet := rfl
  have he' : reply.encode = .ok reply.packet := rfl
  exact ⟨by decide +kernel, slight_damage_refused.1 _ _ _ [] he hd, by decide +kernel,
    slight_damage_refused.2 _ .getBoardInfo _ _ [] he' hd'⟩

end RadarHost
