import RadarHost.Proofs.Bench.Commands
import RadarHost.Proofs.Packet.Resync

/-!
# What a board is heard to reply

To the probe a simulated board replies with its identity (`BoardInfo.reply`), and the host hears the
reply, or hears it spoiled, or with the bits of every byte reversed (`SimulatedBoard.heard`). The
first reply packet in what is heard (`firstReply`) is the board's own at a rate that it accepts
(`firstReply_reply`), and a spoiled one is refused (`parse_spoil`). The reversed bytes do not begin
with a start byte, so that what is taken for a reply among them is too short to hold an identity
(`SimulatedBoard.length_payload_lt`).
-/

namespace RadarHost

open Packet

/-! ## Replies with an identity -/

namespace BoardInfo

/-- The reply of a board with its identity, up to the checksum. -/
def replyBody (info : BoardInfo) : Bytes :=
  replyStart :: Command.getBoardInfo.byte :: (Bytes.ofNat 2 0 ++ Bytes.ofNat 2 size ++ info.toBytes)

/-- The packet in which a board replies with its identity. -/
def reply (info : BoardInfo) : Bytes := withChecksum info.replyBody

theorem encode_reply (info : BoardInfo) :
    Reply.encode ⟨Command.getBoardInfo.byte, 0, info.toBytes⟩ = .ok info.reply :=
  Reply.encode_eq (r := ⟨Command.getBoardInfo.byte, 0, info.toBytes⟩)
    (info.length_toBytes.trans_le (by decide))

@[simp] theorem length_replyBody (info : BoardInfo) :
    info.replyBody.length = Reply.headerSize + size := by
  simp [replyBody, Reply.headerSize]
  omega

@[simp] theorem length_reply (info : BoardInfo) :
    info.reply.length = Reply.headerSize + size + checksumSize := by
  simp [reply, withChecksum]

end BoardInfo

/-! ## Reading a reply -/

/-- A reply that is accepted is intact, and there is all of it. -/
theorem Reply.intact_of_parse {packet : Bytes} {expected : Command} {r : Reply}
    (h : parse packet expected = .ok r) :
    ∃ total body, packetLen packet = .ok (some total) ∧ total ≤ packet.length ∧
      r.payload.length + headerSize + checksumSize ≤ total ∧
      checkedBody (packet.take total) = .ok body := by
  unfold parse at h
  split at h
  · cases h
  · rename_i total start command s₀ s₁ l₀ l₁ rest hlen
    split at h
    · cases h
    · rename_i hl
      split at h
      · cases h
      · split at h
        · cases h
        · rename_i body hbody
          dsimp only at h
          split at h
          · cases h
          · split at h
            · cases h
            · cases h
              refine ⟨total, body, hlen, Nat.le_of_not_lt hl, ?_, hbody⟩
              unfold packetLen at hlen
              dsimp only at hlen
              split at hlen
              · cases hlen
              · cases hlen
                rw [List.length_take]
                omega
  · cases h

/-- The first reply packet in some bytes. -/
def firstReply (heard : Bytes) : Option Bytes :=
  (takeUntil reply? maxFramePayload heard).packet

/-- A reader comes to stand at the first reply packet. -/
theorem exists_place_of_firstReply {heard packet : Bytes} (h : firstReply heard = some packet) :
    ∃ place size, Reaches maxFramePayload place heard ∧
      verdict maxFramePayload place = .take (.reply packet) size := by
  have ht : (takeUntil reply? maxFramePayload heard).taken = (some packet, _) := Prod.ext h rfl
  obtain ⟨place, p, size, hr, hv, hw, -⟩ :=
    reaches_of_mem_allWanted (allWanted_of_some ht ▸ List.mem_cons_self)
  cases p with
  | frame header bytes => cases hw
  | reply bytes =>
    cases hw
    exact ⟨place, size, hr, hv⟩

theorem length_firstReply_le {heard packet : Bytes} (h : firstReply heard = some packet) :
    packet.length ≤ heard.length := by
  obtain ⟨place, size, hr, hv⟩ := exists_place_of_firstReply h
  rw [show packet = place.take size from bytes_of_verdict hv]
  exact (List.length_take_le' _ _).trans hr.length_le

/-- Where there is a reply packet, there is the start byte of one. -/
theorem replyStart_mem_of_firstReply {heard packet : Bytes} (h : firstReply heard = some packet) :
    replyStart ∈ heard := by
  obtain ⟨place, size, hr, hv⟩ := exists_place_of_firstReply h
  exact hr.suffix.subset (List.mem_of_mem_head? (head?_of_verdict_reply hv))

theorem firstReply_of_verdict {heard packet : Bytes} {size : Nat}
    (h : verdict maxFramePayload heard = .take (.reply packet) size) :
    firstReply heard = some packet := by
  have ht : (takeUntil reply? maxFramePayload heard).taken = (some packet, heard.drop size) :=
    wanted_of_some (taken_of_verdict h)
  exact congrArg Prod.fst ht

theorem firstReply_cons_of_noise {b : UInt8} {tail : Bytes} (h : isStart b = false) :
    firstReply (b :: tail) = firstReply tail :=
  congrArg Prod.fst (wanted_congr (taken_cons_of_noise h))

/-! ## Replies that are spoiled -/

theorem spoil_withChecksum (body : Bytes) :
    BoardLine.spoil (withChecksum body) =
      body ++ (Bytes.ofNat checksumSize (checksum body).toNat).modify 1 (· ^^^ 1) := by
  have hlen : (withChecksum body).length - 1 = body.length + 1 := by
    simp [withChecksum, checksumSize]
  unfold BoardLine.spoil
  rw [hlen]
  exact List.modifyTailIdx_add _ 1 body _

/-- A spoiled packet carries another checksum than its own. -/
theorem checkedBody_spoil (body body' : Bytes) :
    checkedBody (BoardLine.spoil (withChecksum body)) ≠ .ok body' := by
  intro h
  have he := eq_withChecksum_of_checkedBody h
  rw [spoil_withChecksum, withChecksum] at he
  have hl := congrArg List.length he
  simp only [List.length_append, List.length_modify, Bytes.length_ofNat] at hl
  obtain ⟨rfl, hc⟩ := List.append_inj he (by omega)
  have hx : UInt8.ofNat ((checksum body).toNat / 256) ^^^ 1 =
      UInt8.ofNat ((checksum body).toNat / 256) := (List.cons.inj (List.cons.inj hc).2).1
  have hz := congrArg (UInt8.ofNat ((checksum body).toNat / 256) ^^^ ·) hx
  simp only [← UInt8.xor_assoc, UInt8.xor_self, UInt8.zero_xor] at hz
  exact absurd hz (by decide)

/-! ## What is heard -/

/-- With whatever checksum, the reply of a board is taken for a reply. -/
theorem verdict_replyBody (limit : Nat) (info : BoardInfo) {crc : Bytes}
    (h : crc.length = checksumSize) :
    verdict limit (info.replyBody ++ crc) =
      .take (.reply (info.replyBody ++ crc)) (info.replyBody ++ crc).length := by
  have hl : (info.replyBody ++ crc).length =
      Reply.headerSize + BoardInfo.size + checksumSize := by
    rw [List.length_append, h, BoardInfo.length_replyBody]
  have hp : Reply.packetLen (info.replyBody ++ crc) =
      .ok (some (Reply.headerSize + BoardInfo.size + checksumSize)) := rfl
  have hs : (info.replyBody ++ crc).head? = some replyStart := rfl
  unfold verdict
  rw [if_pos hs, hp]
  dsimp only
  rw [← hl, if_neg (Nat.lt_irrefl _), List.take_length]

theorem firstReply_replyBody (info : BoardInfo) {crc : Bytes} (h : crc.length = checksumSize) :
    firstReply (info.replyBody ++ crc) = some (info.replyBody ++ crc) :=
  firstReply_of_verdict (verdict_replyBody _ info h)

theorem firstReply_reply (info : BoardInfo) : firstReply info.reply = some info.reply :=
  firstReply_replyBody info (Bytes.length_ofNat _ _)

theorem parse_reply (info : BoardInfo) :
    Reply.parse info.reply .getBoardInfo =
      .ok ⟨Command.getBoardInfo.byte, 0, info.toBytes⟩ :=
  Reply.parse_packet (r := ⟨Command.getBoardInfo.byte, 0, info.toBytes⟩)
    (info.length_toBytes.trans_le (by decide)) rfl rfl

theorem firstReply_spoil (info : BoardInfo) :
    firstReply (BoardLine.spoil info.reply) = some (BoardLine.spoil info.reply) := by
  rw [BoardInfo.reply, spoil_withChecksum]
  exact firstReply_replyBody info (by rw [List.length_modify, Bytes.length_ofNat])

theorem parse_spoil (info : BoardInfo) (expected : Command) (r : Reply) :
    Reply.parse (BoardLine.spoil info.reply) expected ≠ .ok r := by
  intro h
  obtain ⟨total, body, hp, -, -, hbody⟩ := Reply.intact_of_parse h
  have hl : (BoardLine.spoil info.reply).length = total := by
    rw [BoardLine.spoil, List.length_modify, BoardInfo.length_reply]
    rw [BoardInfo.reply, spoil_withChecksum] at hp
    exact Option.some.inj (Except.ok.inj hp)
  rw [← hl, List.take_length] at hbody
  exact checkedBody_spoil _ _ hbody

namespace SimulatedBoard

/-- What is heard of the reply of a board on a line that was opened at a rate. -/
def heard (board : SimulatedBoard) (baudRate : UInt32) : Bytes :=
  (if board.corruptReplies then BoardLine.spoil board.info.reply else board.info.reply).map
    (BoardLine.garble (board.acceptedBaudRates.contains baudRate))

variable {board : SimulatedBoard} {baudRate : UInt32}

/-- A byte that is garbled twice is heard as it was sent. -/
theorem garble_garble (b : UInt8) : BoardLine.garble false (BoardLine.garble false b) = b := by
  simp [BoardLine.garble, Word.reverse]

theorem heard_of_accepted (h : baudRate ∈ board.acceptedBaudRates)
    (hc : board.corruptReplies = false) : board.heard baudRate = board.info.reply := by
  unfold heard
  rw [hc, List.contains_iff_mem.2 h, BoardLine.garble_true]
  rfl

theorem heard_of_not_accepted (h : baudRate ∉ board.acceptedBaudRates)
    (hc : board.corruptReplies = false) :
    board.heard baudRate = board.info.reply.map (BoardLine.garble false) := by
  unfold heard
  rw [hc, Bool.eq_false_iff.2 (fun hr => h (List.contains_iff_mem.1 hr))]
  rfl

theorem length_heard (board : SimulatedBoard) (baudRate : UInt32) :
    (board.heard baudRate).length = Reply.headerSize + BoardInfo.size + checksumSize := by
  unfold heard BoardLine.spoil
  split <;> simp

/-- A garbled reply is heard to begin with noise. -/
theorem length_firstReply_lt (h : baudRate ∉ board.acceptedBaudRates) {packet : Bytes}
    (hp : firstReply (board.heard baudRate) = some packet) :
    packet.length < Reply.headerSize + BoardInfo.size + checksumSize := by
  have hlen := length_heard board baudRate
  have hhead : ∃ tail, board.heard baudRate = BoardLine.garble false replyStart :: tail := by
    unfold heard
    rw [Bool.eq_false_iff.2 (fun hc => h (List.contains_iff_mem.1 hc)), BoardInfo.reply,
      spoil_withChecksum]
    split <;> exact ⟨_, rfl⟩
  obtain ⟨tail, ht⟩ := hhead
  rw [ht, List.length_cons] at hlen
  rw [ht, firstReply_cons_of_noise (by decide)] at hp
  have := length_firstReply_le hp
  omega

/-- No identity is heard of a board that does not accept the rate or spoils its replies. -/
theorem length_payload_lt
    (h : baudRate ∉ board.acceptedBaudRates ∨ board.corruptReplies = true) {packet : Bytes}
    (hp : firstReply (board.heard baudRate) = some packet) {expected : Command} {r : Reply}
    (hr : Reply.parse packet expected = .ok r) : r.payload.length < BoardInfo.size := by
  by_cases ha : baudRate ∈ board.acceptedBaudRates
  · have hc := h.resolve_left (fun hn => hn ha)
    unfold heard at hp
    rw [hc, List.contains_iff_mem.2 ha, BoardLine.garble_true, if_pos rfl, firstReply_spoil] at hp
    cases hp
    exact absurd hr (parse_spoil _ _ _)
  · obtain ⟨total, body, -, htotal, hpayload, -⟩ := Reply.intact_of_parse hr
    have := length_firstReply_lt ha hp
    omega

end SimulatedBoard

/-! ## The probe -/

/-- The packet of the probe. -/
def probePacket : Bytes := [0x01, 0x00, 0x00, 0x00, 0x74, 0xF2]

theorem probePacket_eq : probePacket = Command.getBoardInfo.request := by decide +kernel

theorem encode_probe : Request.encode ⟨.getBoardInfo, []⟩ = .ok probePacket := by
  rw [probePacket_eq]
  exact encode_request _

/-- To the probe a board on a fresh line replies, and nothing else becomes of it. -/
theorem write_probe (board : SimulatedBoard) (baudRate : UInt32) (now : Instant) :
    (BoardLine.opened board baudRate now).write now probePacket =
      { BoardLine.opened board baudRate now with output := board.heard baudRate } := by
  rw [probePacket_eq, BoardLine.write_request rfl]
  unfold BoardLine.obey BoardLine.reply
  rw [show (BoardLine.opened board baudRate now).board = board from rfl, BoardInfo.encode_reply]
  rfl

end RadarHost
