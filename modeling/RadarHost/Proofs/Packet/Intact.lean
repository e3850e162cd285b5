import RadarHost.Proofs.Packet.Parsing

/-!
# Reply packets that are intact

A reader takes bytes for a reply packet that begin with the start byte of a reply and are as many as
the header announces (`framed_of_verdict`). Such a packet is either intact, and then the encoding of
a reply (`Framed.exists_encode`), or its parser refuses it for its checksum before it looks at what
the packet says (`Framed.parse_of_error`). An identity is in a payload if and only if the payload is
ten bytes long (`BoardInfo.exists_toBytes_iff`).
-/

namespace RadarHost

open Packet

/-- The body of a packet that carries its own checksum, whatever that is, is all that comes before
it. -/
theorem Packet.body_of_append {front crc body : Bytes} (hcrc : crc.length = checksumSize)
    (h : checkedBody (front ++ crc) = .ok body) : body = front := by
  refine (List.append_inj' (eq_withChecksum_of_checkedBody h) ?_).1.symm
  rw [hcrc, Bytes.length_ofNat]

/-- The length field of a payload that was taken by its length field. -/
theorem Packet.lengthField_of_take {field rest : Bytes} (h : Bytes.toNat field ≤ rest.length) :
    Bytes.ofNat field.length (rest.take (Bytes.toNat field)).length = field := by
  rw [List.length_take, Nat.min_eq_left h, Bytes.ofNat_toNat]

namespace Reply

/-- Bytes that are taken for a reply packet: the start byte of one, and as many as the header
announces. -/
structure Framed (packet : Bytes) : Prop where
  head_eq : packet.head? = some replyStart
  packetLen_eq : packetLen packet = .ok (some packet.length)

variable {packet body : Bytes}

/-- Where a header announces a length, it is complete and the length plausible. -/
theorem exists_of_packetLen {bytes : Bytes} {total : Nat}
    (h : packetLen bytes = .ok (some total)) :
    ∃ start command s₀ s₁ l₀ l₁ rest,
      bytes = start :: command :: s₀ :: s₁ :: l₀ :: l₁ :: rest ∧
      Bytes.toNat [l₀, l₁] ≤ maxReplyPayload ∧
      total = headerSize + Bytes.toNat [l₀, l₁] + checksumSize := by
  unfold packetLen at h
  split at h
  · rename_i start command s₀ s₁ l₀ l₁ rest
    dsimp only at h
    split at h
    · cases h
    · rename_i hmax
      cases h
      exact ⟨start, command, s₀, s₁, l₀, l₁, rest, rfl, Nat.le_of_not_lt hmax, rfl⟩
  · cases h

/-- The fields of a packet. -/
theorem Framed.exists_fields (h : Framed packet) :
    ∃ command s₀ s₁ l₀ l₁ rest,
      packet = replyStart :: command :: s₀ :: s₁ :: l₀ :: l₁ :: rest ∧
      Bytes.toNat [l₀, l₁] ≤ maxReplyPayload ∧
      rest.length = Bytes.toNat [l₀, l₁] + checksumSize := by
  obtain ⟨start, command, s₀, s₁, l₀, l₁, rest, rfl, hmax, htotal⟩ :=
    exists_of_packetLen h.packetLen_eq
  obtain rfl : start = replyStart := Option.some.inj h.head_eq
  simp only [headerSize, List.length_cons] at htotal
  exact ⟨command, s₀, s₁, l₀, l₁, rest, rfl, hmax, by omega⟩

theorem framed_of_verdict {limit size : Nat} {held : Bytes}
    (h : verdict limit held = .take (.reply packet) size) : Framed packet := by
  have hhead := head?_of_verdict_reply h
  unfold verdict at h
  rw [if_pos hhead] at h
  split at h
  · cases h
  · cases h
  · rename_i total hlen
    split at h
    · cases h
    · rename_i hall
      cases h
      obtain ⟨start, command, s₀, s₁, l₀, l₁, rest, rfl, hmax, rfl⟩ := exists_of_packetLen hlen
      have htotal : headerSize + Bytes.toNat [l₀, l₁] + checksumSize =
          Bytes.toNat [l₀, l₁] + checksumSize + 6 := by rw [headerSize]; omega
      -- the part that is taken has the fields of the header, and so announces the same length
      refine ⟨by rw [htotal]; exact hhead, ?_⟩
      rw [List.length_take, Nat.min_eq_left (Nat.le_of_not_lt hall), htotal]
      unfold packetLen
      simp only [List.take_succ_cons]
      rw [if_neg (Nat.not_lt_of_le hmax), htotal]

/-- Bytes that have the fields of a reply and carry their own checksum are the packet of the reply
with these fields. -/
theorem encode_of_checkedBody {command s₀ s₁ l₀ l₁ : UInt8} {rest : Bytes}
    (hmax : Bytes.toNat [l₀, l₁] ≤ maxReplyPayload)
    (hrest : rest.length = Bytes.toNat [l₀, l₁] + checksumSize)
    (h : checkedBody (replyStart :: command :: s₀ :: s₁ :: l₀ :: l₁ :: rest) = .ok body) :
    encode ⟨command, UInt16.ofNat (Bytes.toNat [s₀, s₁]), rest.take (Bytes.toNat [l₀, l₁])⟩ =
      .ok (replyStart :: command :: s₀ :: s₁ :: l₀ :: l₁ :: rest) := by
  let length := Bytes.toNat [l₀, l₁]
  let r : Reply := ⟨command, UInt16.ofNat (Bytes.toNat [s₀, s₁]), rest.take length⟩
  have hfits : r.Fits := (List.length_take_le ..).trans hmax
  have hcrc : (rest.drop length).length = checksumSize := by
    rw [List.length_drop, hrest, Nat.add_sub_cancel_left]
  have hsplit : replyStart :: command :: s₀ :: s₁ :: l₀ :: l₁ :: rest =
      (replyStart :: command :: s₀ :: s₁ :: l₀ :: l₁ :: rest.take length) ++ rest.drop length := by
    simp only [List.cons_append, List.take_append_drop]
  have hbody := body_of_append hcrc (hsplit ▸ h)
  have hfield := @lengthField_of_take [l₀, l₁] rest (hrest ▸ Nat.le_add_right ..)
  have hstatus := @Bytes.ofNat_toNat_u16 [s₀, s₁] rfl
  refine (encode_eq hfits).trans (congrArg Except.ok ?_)
  rw [Reply.packet, show Bytes.ofNat 2 _ = _ from hstatus, show Bytes.ofNat 2 _ = _ from hfield,
    eq_withChecksum_of_checkedBody h, hbody]
  rfl

/-- A packet that carries its own checksum is what encoding a reply gives. -/
theorem Framed.exists_encode (h : Framed packet) (hintact : checkedBody packet = .ok body) :
    ∃ r : Reply, r.encode = .ok packet := by
  obtain ⟨command, s₀, s₁, l₀, l₁, rest, rfl, hmax, hrest⟩ := h.exists_fields
  exact ⟨_, encode_of_checkedBody hmax hrest hintact⟩

/-- A packet whose checksum is wrong is refused for it. -/
theorem Framed.parse_of_error {e : PacketError} (h : Framed packet)
    (hbody : checkedBody packet = .error e) (expected : Command) :
    parse packet expected = .error e := by
  obtain ⟨command, s₀, s₁, l₀, l₁, rest, rfl, -, -⟩ := h.exists_fields
  unfold parse
  rw [h.packetLen_eq]
  dsimp only
  rw [if_neg (Nat.lt_irrefl _), if_neg (not_not.2 rfl), List.take_length, hbody]

end Reply

/-! ## Identities -/

namespace BoardInfo

variable {payload : Bytes}

theorem toBytes_of_ofBytes {info : BoardInfo} (h : ofBytes payload = .ok info) :
    info.toBytes = payload := by
  unfold ofBytes at h
  split at h
  · rename_i v₀ v₁ p₀ p₁ n₀ n₁ major minor f₀ f₁ rest
    split at h
    · rename_i hrest
      obtain rfl := List.isEmpty_iff.1 hrest
      obtain rfl := Except.ok.inj h
      simp only [toBytes, @Bytes.ofNat_toNat_u16 [_, _] rfl]
      rfl
    · cases h
  · cases h

theorem exists_ofBytes :
    ∀ {payload : Bytes}, payload.length = 10 → ∃ info, ofBytes payload = .ok info
  | [_, _, _, _, _, _, _, _, _, _], _ => ⟨_, rfl⟩

/-- Ten bytes, whichever they are, are the identity of some board, and no other number is. -/
theorem exists_toBytes_iff :
    (∃ info : BoardInfo, payload = info.toBytes) ↔ payload.length = size := by
  constructor
  · rintro ⟨info, rfl⟩
    exact info.length_toBytes
  · intro h
    obtain ⟨info, hinfo⟩ := exists_ofBytes h
    exact ⟨info, (toBytes_of_ofBytes hinfo).symm⟩

end BoardInfo

end RadarHost
