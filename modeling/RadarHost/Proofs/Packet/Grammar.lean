import RadarHost.Proofs.Packet.Access
import RadarHost.Proofs.Packet.Intact

/-!
# Parsers accept nothing but encodings

Encoding what a parser read gives back the bytes that it read. The checks fix them one by one: the
start byte and the command's byte by comparison, the length by where the packet ends, and the last
two bytes by the checksum, which leaves no other body than the one before them
(`Packet.body_of_taken`). All other bytes are in what the parser returns. The lemmas
`exists_of_parse` have what each parser checks, the lemmas `encode_of_parse` that the packet is the
encoding; `only_encodings_parsed` puts them together, with the places that are looked at.
-/

namespace RadarHost

open Packet

/-- The body of a packet that stands at the start of some bytes and carries its own checksum: its
header and its payload. -/
theorem Packet.body_of_taken {header rest body : Bytes} {length : Nat}
    (hall : length + checksumSize ≤ rest.length)
    (h : checkedBody ((header ++ rest).take (header.length + length + checksumSize)) = .ok body) :
    body = header ++ rest.take length := by
  have htaken : (header ++ rest).take (header.length + length + checksumSize) =
      (header ++ rest.take length) ++ (rest.drop length).take checksumSize := by
    rw [Nat.add_assoc, List.take_length_add_append, List.take_add, List.append_assoc]
  have hcrc : ((rest.drop length).take checksumSize).length = checksumSize := by
    rw [List.length_take, List.length_drop]
    omega
  exact body_of_append hcrc (htaken ▸ h)

namespace Request

variable {bytes : Bytes} {r : Request} {used : Nat}

/-- What is checked before a request is accepted. -/
theorem exists_of_parse (h : parse bytes = .ok (r, used)) :
    ∃ l₀ l₁ rest body,
      bytes = requestStart :: r.command.byte :: l₀ :: l₁ :: rest ∧
      Bytes.toNat [l₀, l₁] ≤ maxReplyPayload ∧
      used = headerSize + Bytes.toNat [l₀, l₁] + checksumSize ∧ used ≤ bytes.length ∧
      checkedBody (bytes.take used) = .ok body ∧ r.payload = rest.take (Bytes.toNat [l₀, l₁]) := by
  unfold parse at h
  split at h
  · rename_i start command l₀ l₁ rest
    dsimp only at h
    split at h
    · cases h
    rename_i hstart
    split at h
    · cases h
    rename_i hmax
    split at h
    · cases h
    rename_i hall
    split at h
    · cases h
    · cases h
    · rename_i body c hbody hc
      cases h
      obtain rfl : start = requestStart := not_not.1 hstart
      obtain rfl := Command.ofByte?_eq_some_iff.1 hc
      exact ⟨l₀, l₁, rest, body, rfl, Nat.le_of_not_lt hmax, rfl, Nat.le_of_not_lt hall, hbody, rfl⟩
  · cases h

/-- A request that was read off some bytes is encoded as the bytes that it took. -/
theorem encode_of_parse (h : parse bytes = .ok (r, used)) :
    used ≤ bytes.length ∧ r.encode = .ok (bytes.take used) := by
  obtain ⟨l₀, l₁, rest, body, rfl, hmax, rfl, hall, hbody, hpayload⟩ := exists_of_parse h
  have hrest : Bytes.toNat [l₀, l₁] + checksumSize ≤ rest.length := by
    simp only [List.length_cons, headerSize] at hall
    omega
  have hfield := @lengthField_of_take [l₀, l₁] rest (Nat.le_of_add_right_le hrest)
  have hfits : r.Fits := by
    rw [Fits, hpayload]
    exact (List.length_take_le ..).trans hmax
  refine ⟨hall, (encode_eq hfits).trans (congrArg Except.ok ?_)⟩
  rw [eq_withChecksum_of_checkedBody hbody,
    @body_of_taken [requestStart, r.command.byte, l₀, l₁] rest body _ hrest hbody, packet, hpayload,
    show Bytes.ofNat 2 _ = _ from hfield]
  rfl

end Request

namespace Reply

variable {bytes : Bytes} {expected : Command} {r : Reply}

/-- What is checked before a reply is accepted. -/
theorem exists_of_parse (h : parse bytes expected = .ok r) :
    ∃ s₀ s₁ l₀ l₁ rest body,
      bytes = replyStart :: expected.byte :: s₀ :: s₁ :: l₀ :: l₁ :: rest ∧
      Bytes.toNat [l₀, l₁] ≤ maxReplyPayload ∧
      headerSize + Bytes.toNat [l₀, l₁] + checksumSize ≤ bytes.length ∧
      checkedBody (bytes.take (headerSize + Bytes.toNat [l₀, l₁] + checksumSize)) = .ok body ∧
      UInt16.ofNat (Bytes.toNat [s₀, s₁]) = 0 ∧
      r = ⟨expected.byte, 0, rest.take (Bytes.toNat [l₀, l₁])⟩ := by
  unfold parse at h
  split at h
  · cases h
  · rename_i total start command s₀ s₁ l₀ l₁ rest hlen
    obtain ⟨_, _, _, _, _, _, _, hbytes, hmax, rfl⟩ := exists_of_packetLen hlen
    cases hbytes
    split at h
    · cases h
    rename_i hall
    split at h
    · cases h
    rename_i hstart
    split at h
    · cases h
    rename_i body hbody
    dsimp only at h
    split at h
    · cases h
    rename_i hcommand
    split at h
    · cases h
    rename_i hstatus
    cases h
    obtain rfl : start = replyStart := not_not.1 hstart
    obtain rfl : command = expected.byte := not_not.1 hcommand
    rw [not_not] at hstatus
    exact ⟨s₀, s₁, l₀, l₁, rest, body, rfl, hmax, Nat.le_of_not_lt hall, hbody, hstatus,
      by rw [hstatus]⟩
  · cases h

/-- A reply that was read off some bytes answers the expected command with success, and is encoded
as a packet that the bytes begin with. -/
theorem encode_of_parse (h : parse bytes expected = .ok r) :
    r.command = expected.byte ∧ r.status = 0 ∧
      ∃ packet, r.encode = .ok packet ∧ packet <+: bytes := by
  obtain ⟨s₀, s₁, l₀, l₁, rest, body, rfl, hmax, hall, hbody, hstatus, rfl⟩ := exists_of_parse h
  let length := Bytes.toNat [l₀, l₁]
  let packet := replyStart :: expected.byte :: s₀ :: s₁ :: l₀ :: l₁ ::
    rest.take (length + checksumSize)
  have hpacket : (replyStart :: expected.byte :: s₀ :: s₁ :: l₀ :: l₁ :: rest).take
      (headerSize + length + checksumSize) = packet := by
    rw [Nat.add_assoc]
    exact @List.take_length_add_append _ [replyStart, expected.byte, s₀, s₁, l₀, l₁] rest _
  have htail : (rest.take (length + checksumSize)).length = length + checksumSize := by
    simp only [List.length_cons, headerSize] at hall
    exact (List.length_take ..).trans (Nat.min_eq_left (by omega))
  have hencode := encode_of_checkedBody hmax htail (hpacket ▸ hbody)
  rw [hstatus, List.take_take, Nat.min_eq_left (Nat.le_add_right ..)] at hencode
  exact ⟨rfl, rfl, packet, hencode, hpacket ▸ List.take_prefix ..⟩

end Reply

namespace FrameHeader

variable {bytes p : Bytes} {limit : Nat} {h : FrameHeader}

/-- What is checked before a frame header is accepted. -/
theorem exists_of_parse (hparse : parse bytes limit = .ok h) :
    ∃ q₀ q₁ q₂ q₃ l₀ l₁ l₂ l₃ rest,
      bytes = frameStart :: h.flags :: q₀ :: q₁ :: q₂ :: q₃ :: l₀ :: l₁ :: l₂ :: l₃ :: rest ∧
      Bytes.toNat [l₀, l₁, l₂, l₃] ≤ maxPayload limit ∧
      h.sequence = UInt32.ofNat (Bytes.toNat [q₀, q₁, q₂, q₃]) ∧
      h.payloadLen = UInt32.ofNat (Bytes.toNat [l₀, l₁, l₂, l₃]) := by
  unfold parse at hparse
  split at hparse
  · rename_i start flags q₀ q₁ q₂ q₃ l₀ l₁ l₂ l₃ rest
    dsimp only at hparse
    split at hparse
    · cases hparse
    rename_i hstart
    split at hparse
    · cases hparse
    rename_i hmax
    cases hparse
    obtain rfl : start = frameStart := not_not.1 hstart
    exact ⟨q₀, q₁, q₂, q₃, l₀, l₁, l₂, l₃, rest, rfl, Nat.le_of_not_lt hmax, rfl, rfl⟩
  · cases hparse

/-- What is checked before a payload is accepted. -/
theorem exists_of_payload (hpayload : h.payload bytes = .ok p) :
    ∃ body, checkedBody bytes = .ok body ∧ p = body.drop size := by
  unfold payload at hpayload
  split at hpayload
  · cases hpayload
  · cases hbody : checkedBody bytes with
    | error e =>
      rw [hbody] at hpayload
      cases hpayload
    | ok body =>
      rw [hbody] at hpayload
      cases hpayload
      exact ⟨body, rfl, rfl⟩

/-- A frame whose header and payload were read off some bytes is encoded as the bytes that they
took. -/
theorem encode_of_parse (hparse : parse bytes limit = .ok h) (hall : h.packetLen ≤ bytes.length)
    (hpayload : h.payload (bytes.take h.packetLen) = .ok p) :
    encode h.flags h.sequence p = .ok (bytes.take h.packetLen) ∧
      p.length = h.payloadLen.toNat ∧ h.payloadLen.toNat ≤ limit := by
  obtain ⟨body, hbody, rfl⟩ := exists_of_payload hpayload
  obtain ⟨q₀, q₁, q₂, q₃, l₀, l₁, l₂, l₃, rest, rfl, hmax, hsequence, hlen⟩ :=
    exists_of_parse hparse
  let header := [frameStart, h.flags, q₀, q₁, q₂, q₃, l₀, l₁, l₂, l₃]
  let length := Bytes.toNat [l₀, l₁, l₂, l₃]
  have hlength : h.payloadLen.toNat = length := by
    rw [hlen]
    exact UInt32.toNat_ofNat_of_lt' (Bytes.toNat_lt [l₀, l₁, l₂, l₃])
  rw [packetLen, hlength] at hall hbody ⊢
  have hrest : length + checksumSize ≤ rest.length := by
    simp only [List.length_cons, size] at hall
    omega
  obtain rfl : body = header ++ rest.take length := body_of_taken hrest hbody
  have hfield := @lengthField_of_take [l₀, l₁, l₂, l₃] rest (Nat.le_of_add_right_le hrest)
  have hsequence' : Bytes.ofNat 4 h.sequence.toNat = [q₀, q₁, q₂, q₃] := by
    rw [hsequence]
    exact Bytes.ofNat_toNat_u32 rfl
  have hp : (header ++ rest.take length).drop size = rest.take length := rfl
  have hfits : (rest.take length).length ≤ maxFramePayload :=
    (List.length_take_le ..).trans (hmax.trans (min_le_right ..))
  rw [hp]
  refine ⟨?_, ?_, hmax.trans (min_le_left ..)⟩
  · rw [encode, if_neg (Nat.not_lt_of_le hfits), eq_withChecksum_of_checkedBody hbody, hsequence',
      show Bytes.ofNat 4 _ = _ from hfield]
    rfl
  · exact (List.length_take ..).trans (Nat.min_eq_left (Nat.le_of_add_right_le hrest))

end FrameHeader

/-- Encoding what a parser accepted gives the bytes that it read. A request is encoded as the bytes
that it took, a reply, which answers the expected command with status zero, as a packet that the
bytes begin with, a frame as the bytes of its header, its payload, which is as long as the header
says and no longer than the limit, and its checksum, and an identity as all the bytes. And no parser
looks for a byte where none is: each one, going through the bytes place by place, has an outcome. -/
theorem only_encodings_parsed :
    (∀ (bytes : Bytes) (r : Request) (used : Nat), Request.parse bytes = .ok (r, used) →
      used ≤ bytes.length ∧ r.encode = .ok (bytes.take used)) ∧
    (∀ (bytes : Bytes) (expected : Command) (r : Reply), Reply.parse bytes expected = .ok r →
      r.command = expected.byte ∧ r.status = 0 ∧
        ∃ packet, r.encode = .ok packet ∧ packet <+: bytes) ∧
    (∀ (bytes : Bytes) (limit : Nat) (h : FrameHeader) (p : Bytes),
      FrameHeader.parse bytes limit = .ok h → h.packetLen ≤ bytes.length →
      h.payload (bytes.take h.packetLen) = .ok p →
        FrameHeader.encode h.flags h.sequence p = .ok (bytes.take h.packetLen) ∧
        p.length = h.payloadLen.toNat ∧ h.payloadLen.toNat ≤ limit) ∧
    (∀ (bytes : Bytes) (info : BoardInfo), BoardInfo.ofBytes bytes = .ok info →
      bytes = info.toBytes) ∧
    ∀ bytes : Bytes,
      (Request.read bytes).run = some (Request.parse bytes) ∧
      (Reply.readLen bytes).run = some (Reply.packetLen bytes) ∧
      (∀ expected, (Reply.read bytes expected).run = some (Reply.parse bytes expected)) ∧
      (∀ limit, (FrameHeader.read bytes limit).run = some (FrameHeader.parse bytes limit)) ∧
      (∀ h : FrameHeader, (h.readPayload bytes).run = some (h.payload bytes)) ∧
      (BoardInfo.read bytes).run = some (BoardInfo.ofBytes bytes) :=
  ⟨fun _ _ _ => Request.encode_of_parse, fun _ _ _ => Reply.encode_of_parse,
    fun _ _ _ _ => FrameHeader.encode_of_parse,
    fun _ _ h => (BoardInfo.toBytes_of_ofBytes h).symm,
    fun bytes => ⟨Request.read_eq bytes, Reply.readLen_eq bytes, Reply.read_eq bytes,
      FrameHeader.read_eq bytes, fun h => h.readPayload_eq bytes, BoardInfo.read_eq bytes⟩⟩

/-- A packet of each kind is read off the bytes before some noise, and encoded as them. -/
theorem only_encodings_parsed_before_noise :
    Request.encode ⟨.startAcquisition, [7]⟩ =
      .ok (([0x01, 0x10, 1, 0, 7, 0x2D, 0xE7, 0xFF] : Bytes).take 7) ∧
    (∃ packet, Reply.encode ⟨0x10, 0, [7]⟩ = .ok packet ∧
      packet <+: [0x02, 0x10, 0, 0, 1, 0, 7, 0x7E, 0xCC, 0xFF]) ∧
    FrameHeader.encode 1 2 [7] =
      .ok (([0x03, 1, 2, 0, 0, 0, 1, 0, 0, 0, 7, 0x61, 0xDF, 0xFF] : Bytes).take 13) ∧
    [0x83, 0x04, 1, 0, 2, 0, 3, 4, 5, 0] = (BoardInfo.mk 0x483 1 2 ⟨3, 4, 5⟩).toBytes := by
  obtain ⟨request, reply, frame, identity, -⟩ := only_encodings_parsed
  refine ⟨?request, ?reply, ?frame, ?identity⟩
  case request => exact (request _ _ 7 (by decide +kernel)).2
  case reply => exact (reply _ .startAcquisition _ (by decide +kernel)).2.2
  case frame => exact (frame _ 16 ⟨1, 2, 1⟩ _ (by decide +kernel) (by decide) (by decide +kernel)).1
  case identity => exact identity _ _ (by decide +kernel)

end RadarHost
