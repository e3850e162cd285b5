import RadarHost.Packet.BoardInfo
import RadarHost.Packet.Request
import RadarHost.Proofs.Packet.RoundTrip

/-!
# Parsing undoes encoding

A packet is read back from its encoding, whatever follows it: the length field tells the parser
where the packet ends (`checkedBody_take_append`). The lemmas `parse_packet_append` say so of
requests, of replies, which are refused when they answer another command or carry a status, and of
frames, which are refused when they are longer than the host finds plausible; an identity is read
back from its ten bytes (`BoardInfo.ofBytes_toBytes`). `parsing_undoes_encoding` puts them together
with the one reason for which encoding fails.
-/

namespace RadarHost

open Packet

/-- The body of a packet is found in front of whatever follows the packet. -/
theorem Packet.checkedBody_take_append (body later : Bytes) :
    checkedBody ((withChecksum body ++ later).take (withChecksum body).length) = .ok body := by
  rw [List.take_left, checkedBody_withChecksum]

/-- The length field of a request or a reply holds every length that one can have. -/
theorem Packet.toNat_lengthField {length : Nat} (h : length ≤ maxReplyPayload) :
    Bytes.toNat [UInt8.ofNat length, UInt8.ofNat (length / 256)] = length :=
  @Bytes.toNat_ofNat 2 length (lt_of_le_of_lt h (by decide))

/-! ## Requests -/

namespace Request

variable {r : Request}

/-- The packet of a request. -/
def packet (r : Request) : Bytes :=
  withChecksum (requestStart :: r.command.byte :: (Bytes.ofNat 2 r.payload.length ++ r.payload))

/-- A request whose payload is not too long for a packet. -/
def Fits (r : Request) : Prop := r.payload.length ≤ maxReplyPayload

/-- The packet is what encoding the request gives. -/
theorem encode_eq (h : r.Fits) : r.encode = .ok r.packet := by
  unfold encode
  rw [if_neg (Nat.not_lt_of_le h)]
  rfl

theorem of_encode {packet : Bytes} (h : r.encode = .ok packet) : r.Fits ∧ r.packet = packet := by
  rcases Nat.lt_or_ge maxReplyPayload r.payload.length with hlong | hfits
  · rw [encode, if_pos hlong] at h
    cases h
  · exact ⟨hfits, Except.ok.inj ((encode_eq hfits).symm.trans h)⟩

theorem length_packet (r : Request) :
    r.packet.length = headerSize + r.payload.length + checksumSize := by
  unfold packet withChecksum headerSize
  simp only [List.length_append, List.length_cons, Bytes.length_ofNat]
  omega

/-- A request is read back from its packet, with the length of the packet. -/
theorem parse_packet_append (h : r.Fits) (later : Bytes) :
    parse (r.packet ++ later) = .ok (r, r.packet.length) := by
  obtain ⟨command, payload⟩ := r
  let body := requestStart :: command.byte :: (Bytes.ofNat 2 payload.length ++ payload)
  let crc := Bytes.ofNat checksumSize (checksum body).toNat
  have hbytes : packet ⟨command, payload⟩ ++ later =
      requestStart :: command.byte :: UInt8.ofNat payload.length ::
        UInt8.ofNat (payload.length / 256) :: (payload ++ crc ++ later) := rfl
  have hlen : Bytes.toNat [UInt8.ofNat payload.length, UInt8.ofNat (payload.length / 256)] =
      payload.length := toNat_lengthField h
  have htotal : headerSize + payload.length + checksumSize =
      (packet ⟨command, payload⟩).length := (length_packet ⟨command, payload⟩).symm
  have hall : ¬ (packet ⟨command, payload⟩ ++ later).length <
      (packet ⟨command, payload⟩).length := by
    rw [List.length_append]
    omega
  have hbody : checkedBody ((packet ⟨command, payload⟩ ++ later).take
      (packet ⟨command, payload⟩).length) = .ok body := checkedBody_take_append body later
  have hpayload : (payload ++ crc ++ later).take payload.length = payload := by
    rw [List.append_assoc, List.take_left]
  rw [hbytes]
  unfold parse
  dsimp only
  rw [← hbytes, if_neg (not_not.2 rfl), hlen, if_neg (Nat.not_lt_of_le h), htotal, if_neg hall,
    hbody, Command.ofByte?_eq_some_iff.2 rfl]
  dsimp only
  rw [hpayload]

end Request

/-! ## Replies -/

namespace Reply

variable {r : Reply}

theorem of_encode {packet : Bytes} (h : r.encode = .ok packet) : r.Fits ∧ r.packet = packet := by
  rcases Nat.lt_or_ge maxReplyPayload r.payload.length with hlong | hfits
  · rw [encode, if_pos hlong] at h
    cases h
  · exact ⟨hfits, Except.ok.inj ((encode_eq hfits).symm.trans h)⟩

/-- A reply is read back from its packet, unless it answers another command or carries a status. -/
theorem parse_packet_append (h : r.Fits) (expected : Command) (later : Bytes) :
    parse (r.packet ++ later) expected =
      if r.command ≠ expected.byte then .error (.unexpectedCommand expected.byte r.command)
      else if r.status ≠ 0 then .error (.boardStatus r.status)
      else .ok r := by
  obtain ⟨command, status, payload⟩ := r
  let body := replyStart :: command ::
    (Bytes.ofNat 2 status.toNat ++ Bytes.ofNat 2 payload.length ++ payload)
  let crc := Bytes.ofNat checksumSize (checksum body).toNat
  have hbytes : packet ⟨command, status, payload⟩ ++ later =
      replyStart :: command :: UInt8.ofNat status.toNat :: UInt8.ofNat (status.toNat / 256) ::
        UInt8.ofNat payload.length :: UInt8.ofNat (payload.length / 256) ::
          (payload ++ crc ++ later) := rfl
  have hlen : Bytes.toNat [UInt8.ofNat payload.length, UInt8.ofNat (payload.length / 256)] =
      payload.length := toNat_lengthField h
  have hstatus : UInt16.ofNat (Bytes.toNat [UInt8.ofNat status.toNat,
      UInt8.ofNat (status.toNat / 256)]) = status := by
    rw [show Bytes.toNat [UInt8.ofNat status.toNat, UInt8.ofNat (status.toNat / 256)] =
      status.toNat from @Bytes.toNat_ofNat 2 _ status.toNat_lt, UInt16.ofNat_toNat]
  have hall : ¬ (packet ⟨command, status, payload⟩ ++ later).length <
      (packet ⟨command, status, payload⟩).length := by
    rw [List.length_append]
    omega
  have hbody : checkedBody ((packet ⟨command, status, payload⟩ ++ later).take
      (packet ⟨command, status, payload⟩).length) = .ok body := checkedBody_take_append body later
  have hpayload : (payload ++ crc ++ later).take payload.length = payload := by
    rw [List.append_assoc, List.take_left]
  unfold parse
  rw [packetLen_packet h]
  simp only [hbytes]
  rw [← hbytes, if_neg hall, if_neg (not_not.2 rfl), hbody]
  dsimp only
  rw [hstatus, hlen, hpayload]

end Reply

/-! ## Frames -/

namespace Frame

variable {f : Frame}

theorem of_encode {packet : Bytes}
    (h : FrameHeader.encode f.flags f.sequence f.payload = .ok packet) :
    f.payload.length ≤ maxFramePayload ∧ f.packet = packet := by
  rcases Nat.lt_or_ge maxFramePayload f.payload.length with hlong | hfits
  · rw [FrameHeader.encode, if_pos hlong] at h
    cases h
  · exact ⟨hfits, Except.ok.inj ((encode_eq (le_min hfits hfits)).symm.trans h)⟩

/-- A header is read back from the packet of a frame, unless the payload is longer than the host
finds plausible. -/
theorem parse_packet_append (h : f.payload.length ≤ maxFramePayload) (limit : Nat)
    (later : Bytes) :
    FrameHeader.parse (f.packet ++ later) limit =
      if f.payload.length ≤ limit then .ok f.header
      else .error (.payloadTooLarge f.payload.length (FrameHeader.maxPayload limit)) := by
  by_cases hl : f.payload.length ≤ limit
  · rw [if_pos hl, parse_packet (le_min hl h)]
  · have hmax : FrameHeader.maxPayload limit < f.payload.length :=
      lt_of_le_of_lt (min_le_left _ _) (Nat.lt_of_not_le hl)
    have hlen : Bytes.toNat (Bytes.ofNat 4 f.payload.length) = f.payload.length :=
      Bytes.toNat_ofNat (lt_of_le_of_lt h (by decide))
    let l := Bytes.toNat (Bytes.ofNat 4 f.payload.length)
    have hparse : FrameHeader.parse (f.packet ++ later) limit =
        if FrameHeader.maxPayload limit < l then
          .error (.payloadTooLarge l (FrameHeader.maxPayload limit))
        else .ok ⟨f.flags,
          UInt32.ofNat (Bytes.toNat (Bytes.ofNat 4 f.sequence.toNat)), UInt32.ofNat l⟩ := rfl
    rw [hparse, show l = f.payload.length from hlen, if_pos hmax, if_neg hl]

end Frame

/-! ## Identities -/

namespace BoardInfo

@[simp] theorem length_toBytes (info : BoardInfo) : info.toBytes.length = size := by
  simp [toBytes, size]

/-- Only ten bytes are an identity. -/
theorem length_of_ofBytes {payload : Bytes} {info : BoardInfo} (h : ofBytes payload = .ok info) :
    payload.length = size := by
  unfold ofBytes at h
  split at h
  · split at h
    · rename_i hr
      rw [List.isEmpty_iff.1 hr]
      rfl
    · cases h
  · cases h

theorem cursor_of_ofBytes {payload : Bytes} {e : PacketError} (h : ofBytes payload = .error e) :
    ∃ cause, e = .cursor cause := by
  unfold ofBytes at h
  split at h
  · split at h
    · cases h
    · cases h
      exact ⟨_, rfl⟩
  · cases h
    exact ⟨_, rfl⟩

theorem ofNat_toNat_word (w : UInt16) :
    UInt16.ofNat (Bytes.toNat (Bytes.ofNat 2 w.toNat)) = w := by
  rw [Bytes.toNat_ofNat w.toNat_lt, UInt16.ofNat_toNat]

theorem ofBytes_toBytes (info : BoardInfo) : ofBytes info.toBytes = .ok info := by
  obtain ⟨vid, pid, protocolVersion, major, minor, patch⟩ := info
  show Except.ok (BoardInfo.mk (UInt16.ofNat (Bytes.toNat (Bytes.ofNat 2 vid.toNat)))
    (UInt16.ofNat (Bytes.toNat (Bytes.ofNat 2 pid.toNat)))
    (UInt16.ofNat (Bytes.toNat (Bytes.ofNat 2 protocolVersion.toNat)))
    ⟨major, minor, UInt16.ofNat (Bytes.toNat (Bytes.ofNat 2 patch.toNat))⟩) = _
  simp only [ofNat_toNat_word]

end BoardInfo

/-! ## All kinds -/

/-- What encoding a payload gives: a packet of which `undone` is true, or, if and only if the
payload is longer than `maximum`, the error that says so. -/
def EncodesUpTo (maximum : Nat) (payload : Bytes) (undone : Bytes → Prop) :
    Except PacketError Bytes → Prop
  | .ok packet => payload.length ≤ maximum ∧ undone packet
  | .error e => maximum < payload.length ∧ e = .payloadTooLarge payload.length maximum

/-- What encoding gives that is refused only for the length of the payload. -/
theorem encodesUpTo_of {maximum : Nat} {payload packet : Bytes} {undone : Bytes → Prop}
    {encoded : Except PacketError Bytes}
    (hok : payload.length ≤ maximum → encoded = .ok packet ∧ undone packet)
    (herror : maximum < payload.length →
      encoded = .error (.payloadTooLarge payload.length maximum)) :
    EncodesUpTo maximum payload undone encoded := by
  rcases Nat.lt_or_ge maximum payload.length with h | h
  · rw [herror h]
    exact ⟨h, rfl⟩
  · obtain ⟨he, hu⟩ := hok h
    rw [he]
    exact ⟨h, hu⟩

/-- Parsing undoes encoding, whatever follows the packet. A request is read back with the length of
its packet. A reply announces the length of its packet, and is read back where its command is the
expected one and its status zero, refused for its command where that is another one, and for its
status where only that is wrong. A frame header is read back under every limit that the payload does
not exceed, with the length of its packet, and on just the packet it gives the payload. An identity
is read back from its bytes. And encoding fails if and only if the payload is longer than its kind
of packet allows. -/
theorem parsing_undoes_encoding :
    (∀ (r : Request) (later : Bytes),
      EncodesUpTo maxReplyPayload r.payload
        (fun packet => Request.parse (packet ++ later) = .ok (r, packet.length)) r.encode) ∧
    (∀ (r : Reply) (expected : Command) (later : Bytes),
      EncodesUpTo maxReplyPayload r.payload
        (fun packet => Reply.packetLen (packet ++ later) = .ok (some packet.length) ∧
          Reply.parse (packet ++ later) expected =
            if r.command ≠ expected.byte then
              .error (.unexpectedCommand expected.byte r.command)
            else if r.status ≠ 0 then .error (.boardStatus r.status)
            else .ok r) r.encode) ∧
    (∀ (flags : UInt8) (sequence : UInt32) (payload : Bytes) (limit : Nat) (later : Bytes),
      EncodesUpTo maxFramePayload payload
        (fun packet => ∃ header : FrameHeader,
          header.flags = flags ∧ header.sequence = sequence ∧
          header.payloadLen.toNat = payload.length ∧ header.packetLen = packet.length ∧
          header.payload packet = .ok payload ∧
          FrameHeader.parse (packet ++ later) limit =
            if payload.length ≤ limit then .ok header
            else .error (.payloadTooLarge payload.length (FrameHeader.maxPayload limit)))
        (FrameHeader.encode flags sequence payload)) ∧
    ∀ info : BoardInfo, BoardInfo.ofBytes info.toBytes = .ok info := by
  refine ⟨fun r later => ?request, fun r expected later => ?reply,
    fun flags sequence payload limit later => ?frame, BoardInfo.ofBytes_toBytes⟩
  case request =>
    exact encodesUpTo_of (fun h => ⟨Request.encode_eq h, Request.parse_packet_append h later⟩)
      fun h => if_pos h
  case reply =>
    exact encodesUpTo_of
      (fun h => ⟨Reply.encode_eq h, Reply.packetLen_packet h later,
        Reply.parse_packet_append h expected later⟩)
      fun h => if_pos h
  case frame =>
    let f : Frame := ⟨sequence, flags, payload⟩
    refine @encodesUpTo_of _ _ f.packet _ _ (fun h => ?_) fun h => if_pos h
    have hfits : f.Fits maxFramePayload := le_min h h
    exact ⟨Frame.encode_eq hfits, f.header, rfl, rfl, Frame.payloadLen_header hfits,
      (Frame.length_packet hfits).symm, Frame.payload_packet hfits,
      Frame.parse_packet_append h limit later⟩

end RadarHost
