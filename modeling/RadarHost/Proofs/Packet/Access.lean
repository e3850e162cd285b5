import Mathlib.Data.List.Basic
import RadarHost.Packet.BoardInfo
import RadarHost.Packet.Request
import RadarHost.Proofs.Buffer.Reading
import RadarHost.Proofs.Packet.Resync

/-!
# Parsing stays within the bytes

Each parser once more, as it goes through the bytes: a cursor gives the header and the payload, and
every other byte is looked up at its place. `Reading` has no outcome where there is no byte at a
place that is looked up. The lemmas `read_eq` say that each of these parsers has an outcome for all
bytes, and that it is what the parser gives.
-/

namespace RadarHost

open Packet

/-- A parser at work: it ends with a result or an error, unless it looks for a byte that is not
there. -/
abbrev Reading (α : Type) := ExceptT PacketError Option α

namespace Reading

variable {α β : Type}

/-- The outcome of looking where no byte is. -/
def outside : Reading α := ExceptT.mk none

/-- The byte at a place. -/
def byte (bytes : Bytes) (place : Nat) : Reading UInt8 := ExceptT.mk (bytes[place]?.map .ok)

/-- The bytes from one place up to another. -/
def slice (bytes : Bytes) (start stop : Nat) : Reading Bytes :=
  if start ≤ stop ∧ stop ≤ bytes.length then pure ((bytes.take stop).drop start) else outside

/-- What a cursor gave. -/
def consumed (result : Except CursorError α) : Reading α :=
  ExceptT.mk (some (result.mapError .cursor))

/-- Goes on unless there is a reason not to. -/
def refuse (reason : Prop) [Decidable reason] (e : PacketError) : Reading Unit :=
  if reason then throw e else pure ()

theorem slice_of_le {bytes : Bytes} {start stop : Nat} (h : start ≤ stop)
    (hs : stop ≤ bytes.length) : slice bytes start stop = pure ((bytes.take stop).drop start) :=
  if_pos ⟨h, hs⟩

@[simp] theorem consumed_ok (a : α) : consumed (.ok a) = pure a := rfl

theorem run_bind_of_ok {m : Reading α} {a : α} (next : α → Reading β)
    (h : m.run = some (.ok a)) : (m >>= next).run = (next a).run :=
  congrArg (· >>= ExceptT.bindCont next) h

theorem run_bind_of_error {m : Reading α} {e : PacketError} (next : α → Reading β)
    (h : m.run = some (.error e)) : (m >>= next).run = some (.error e) :=
  congrArg (· >>= ExceptT.bindCont next) h

/-- Where there is no reason to stop, the outcome is that of what follows. -/
theorem run_refuse_bind {reason : Prop} [Decidable reason] {e : PacketError}
    {next : Unit → Reading α} {result : Except PacketError α}
    (h : ¬ reason → (next ()).run = some result) :
    (refuse reason e >>= next).run = some (if reason then .error e else result) := by
  unfold refuse
  by_cases hr : reason
  · rw [if_pos hr, if_pos hr]
    rfl
  · rw [if_neg hr, if_neg hr]
    exact h hr

end Reading

open Reading

/-! ## The parsers, byte by byte -/

def Packet.readBody (packet : Bytes) : Reading Bytes := do
  refuse (packet.length < checksumSize) (.incompletePacket packet.length checksumSize)
  let body ← slice packet 0 (packet.length - checksumSize)
  let crc ← slice packet (packet.length - checksumSize) packet.length
  let received := UInt16.ofNat (Bytes.toNat [← byte crc 0, ← byte crc 1])
  refuse (received ≠ checksum body) (.checksumMismatch received (checksum body))
  return body

def Request.read (bytes : Bytes) : Reading (Request × Nat) := do
  let (header, c) ← consumed ((Cursor.new (Buffer.ofBytes 1 bytes)).consume headerSize)
  let [start, command, l₀, l₁] := header | outside
  refuse (start ≠ requestStart) (.invalidStart requestStart start)
  let length := Bytes.toNat [l₀, l₁]
  refuse (maxReplyPayload < length) (.payloadTooLarge length maxReplyPayload)
  let total := headerSize + length + checksumSize
  refuse (bytes.length < total) (.incompletePacket bytes.length total)
  let _ ← readBody (← slice bytes 0 total)
  let some command := Command.ofByte? command | throw (.invalidCommand command)
  let (payload, _) ← consumed (c.consumeBytes length)
  return (⟨command, payload⟩, total)

def Reply.readLen (bytes : Bytes) : Reading (Option Nat) :=
  if bytes.length < headerSize then return none
  else do
    let length := Bytes.toNat [← byte bytes 4, ← byte bytes 5]
    refuse (maxReplyPayload < length) (.payloadTooLarge length maxReplyPayload)
    return some (headerSize + length + checksumSize)

/-- Reads a reply off a packet that is as long as its header says. -/
def Reply.readPacket (packet : Bytes) (expected : Command) : Reading Reply := do
  let (header, c) ← consumed ((Cursor.new (Buffer.ofBytes 1 packet)).consume headerSize)
  let [start, command, s₀, s₁, l₀, l₁] := header | outside
  refuse (start ≠ replyStart) (.invalidStart replyStart start)
  let _ ← readBody packet
  refuse (command ≠ expected.byte) (.unexpectedCommand expected.byte command)
  let status := UInt16.ofNat (Bytes.toNat [s₀, s₁])
  refuse (status ≠ 0) (.boardStatus status)
  let (payload, c) ← consumed (c.consumeBytes (Bytes.toNat [l₀, l₁]))
  let (_, c) ← consumed (c.consumeBytes checksumSize)
  let _ ← consumed c.finish
  return ⟨command, status, payload⟩

def Reply.read (bytes : Bytes) (expected : Command) : Reading Reply := do
  let some total ← readLen bytes
    | throw (.incompletePacket bytes.length (headerSize + checksumSize))
  refuse (bytes.length < total) (.incompletePacket bytes.length total)
  readPacket (← slice bytes 0 total) expected

def FrameHeader.read (bytes : Bytes) (limit : Nat) : Reading FrameHeader := do
  let (header, _) ← consumed ((Cursor.new (Buffer.ofBytes 1 bytes)).consume size)
  let [start, flags, q₀, q₁, q₂, q₃, l₀, l₁, l₂, l₃] := header | outside
  refuse (start ≠ frameStart) (.invalidStart frameStart start)
  let length := Bytes.toNat [l₀, l₁, l₂, l₃]
  refuse (maxPayload limit < length) (.payloadTooLarge length (maxPayload limit))
  return ⟨flags, UInt32.ofNat (Bytes.toNat [q₀, q₁, q₂, q₃]), UInt32.ofNat length⟩

def FrameHeader.readPayload (h : FrameHeader) (packet : Bytes) : Reading Bytes := do
  refuse (packet.length ≠ h.packetLen) (.incompletePacket packet.length h.packetLen)
  let body ← readBody packet
  slice body size body.length

def BoardInfo.read (payload : Bytes) : Reading BoardInfo := do
  let (info, c) ← consumed ((Cursor.new (Buffer.ofBytes 1 payload)).consume size)
  let _ ← consumed c.finish
  let [v₀, v₁, p₀, p₁, n₀, n₁, major, minor, f₀, f₁] := info | outside
  return {
    vid := UInt16.ofNat (Bytes.toNat [v₀, v₁])
    pid := UInt16.ofNat (Bytes.toNat [p₀, p₁])
    protocolVersion := UInt16.ofNat (Bytes.toNat [n₀, n₁])
    firmware := ⟨major, minor, UInt16.ofNat (Bytes.toNat [f₀, f₁])⟩ }

/-! ## They have an outcome -/

theorem Packet.readBody_eq (packet : Bytes) :
    (readBody packet).run = some (checkedBody packet) := by
  unfold readBody checkedBody
  refine run_refuse_bind fun h => ?_
  have hcrc : (packet.drop (packet.length - checksumSize)).length = checksumSize := by
    rw [List.length_drop]
    omega
  obtain ⟨c₀, c₁, hc⟩ := List.length_eq_two.1 hcrc
  rw [slice_of_le (Nat.zero_le _) (Nat.sub_le ..), slice_of_le (Nat.sub_le ..) (Nat.le_refl _),
    List.take_length, hc]
  dsimp only
  rw [← ite_not]
  exact run_refuse_bind fun _ => rfl

/-- What follows the check of a packet goes on with its body, or ends with what is wrong. -/
theorem run_readBody_bind {α : Type} (packet : Bytes) (next : Bytes → Reading α) :
    (readBody packet >>= next).run =
      match checkedBody packet with
      | .error e => some (.error e)
      | .ok body => (next body).run := by
  have hbody := readBody_eq packet
  cases hc : checkedBody packet with
  | error e =>
    rw [hc] at hbody
    exact run_bind_of_error next hbody
  | ok body =>
    rw [hc] at hbody
    exact run_bind_of_ok next hbody

theorem Request.parse_of_length_lt {bytes : Bytes} (h : bytes.length < headerSize) :
    parse bytes = .error (.cursor (.outOfBounds headerSize bytes.length)) := by
  unfold parse
  split
  · simp only [List.length_cons, headerSize] at h
    omega
  · rfl

theorem Request.read_eq (bytes : Bytes) : (read bytes).run = some (parse bytes) := by
  unfold read
  rcases Nat.lt_or_ge bytes.length headerSize with hshort | hlong
  · rw [Cursor.consume_of_lt hshort, parse_of_length_lt hshort]
    rfl
  · obtain ⟨c, hheader, hu, hrest, hleft⟩ := Cursor.consume_of_le (by decide) hlong
    rw [hheader]
    match bytes, hlong with
    | start :: command :: l₀ :: l₁ :: rest, _ =>
      let length := Bytes.toNat [l₀, l₁]
      refine run_refuse_bind fun _ => run_refuse_bind fun _ => run_refuse_bind fun htotal => ?_
      have hall : length ≤ c.remaining := by
        simp only [List.length_cons, headerSize] at hleft htotal
        omega
      obtain ⟨c', hpayload, -⟩ := Cursor.consumeBytes_of_le hu hall
      rw [slice_of_le (Nat.zero_le _) (Nat.le_of_not_lt htotal), pure_bind, List.drop_zero,
        run_readBody_bind]
      cases checkedBody _ with
      | error e => rfl
      | ok body =>
        cases Command.ofByte? command with
        | none => rfl
        | some command =>
          dsimp only
          rw [show c.consumeBytes (Bytes.toNat [l₀, l₁]) = _ from hpayload, hrest]
          rfl

theorem Reply.packetLen_of_length_lt {bytes : Bytes} (h : bytes.length < headerSize) :
    packetLen bytes = .ok none := by
  unfold packetLen
  split
  · simp only [List.length_cons, headerSize] at h
    omega
  · rfl

theorem Reply.readLen_eq (bytes : Bytes) : (readLen bytes).run = some (packetLen bytes) := by
  unfold readLen
  rcases Nat.lt_or_ge bytes.length headerSize with hshort | hlong
  · rw [if_pos hshort, packetLen_of_length_lt hshort]
    rfl
  · rw [if_neg (Nat.not_lt_of_le hlong)]
    match bytes, hlong with
    | b₀ :: b₁ :: b₂ :: b₃ :: l₀ :: l₁ :: rest, _ => exact run_refuse_bind fun _ => rfl

/-- A packet that is as long as its header says is read to its end. -/
theorem Reply.readPacket_eq {start command s₀ s₁ l₀ l₁ : UInt8} {rest : Bytes}
    (h : rest.length = Bytes.toNat [l₀, l₁] + checksumSize) (expected : Command) :
    let packet := start :: command :: s₀ :: s₁ :: l₀ :: l₁ :: rest
    let status := UInt16.ofNat (Bytes.toNat [s₀, s₁])
    (readPacket packet expected).run = some (
      if start ≠ replyStart then .error (.invalidStart replyStart start)
      else
        match checkedBody packet with
        | .error e => .error e
        | .ok _ =>
          if command ≠ expected.byte then .error (.unexpectedCommand expected.byte command)
          else if status ≠ 0 then .error (.boardStatus status)
          else .ok ⟨command, status, rest.take (Bytes.toNat [l₀, l₁])⟩) := by
  intro packet status
  have hlong : headerSize ≤ packet.length := by
    simp only [packet, List.length_cons, headerSize]
    omega
  obtain ⟨c, hheader, hu, hrest, hleft⟩ := Cursor.consume_of_le (by decide) hlong
  obtain ⟨c', c'', crc, hpayload, hcrc, hfinish⟩ := Cursor.consumeBytes_to_end hu (hleft.trans h)
  rw [readPacket, hheader]
  refine run_refuse_bind fun _ => ?_
  rw [run_readBody_bind]
  cases checkedBody packet with
  | error e => rfl
  | ok body =>
    refine run_refuse_bind fun _ => run_refuse_bind fun _ => ?_
    rw [hpayload, hrest]
    simp only [consumed_ok, pure_bind, hcrc, hfinish]
    rfl

theorem Reply.read_eq (bytes : Bytes) (expected : Command) :
    (read bytes expected).run = some (parse bytes expected) := by
  have hread := readLen_eq bytes
  unfold read parse
  rcases Nat.lt_or_ge bytes.length headerSize with hshort | hlong
  · rw [packetLen_of_length_lt hshort] at hread ⊢
    exact run_bind_of_ok _ hread
  · match bytes, hlong with
    | start :: command :: s₀ :: s₁ :: l₀ :: l₁ :: rest, _ =>
      let length := Bytes.toNat [l₀, l₁]
      by_cases hmax : maxReplyPayload < length
      · have hlen : packetLen (start :: command :: s₀ :: s₁ :: l₀ :: l₁ :: rest) = _ := if_pos hmax
        rw [hlen] at hread ⊢
        exact run_bind_of_error _ hread
      · have hlen : packetLen (start :: command :: s₀ :: s₁ :: l₀ :: l₁ :: rest) = _ := if_neg hmax
        rw [hlen] at hread ⊢
        rw [run_bind_of_ok _ hread]
        refine run_refuse_bind fun htotal => ?_
        let tail := rest.take (length + checksumSize)
        have htail : tail.length = length + checksumSize := by
          simp only [List.length_cons, headerSize] at htotal
          exact (List.length_take ..).trans (Nat.min_eq_left (by omega))
        have hpacket : (start :: command :: s₀ :: s₁ :: l₀ :: l₁ :: rest).take
            (headerSize + length + checksumSize) =
              start :: command :: s₀ :: s₁ :: l₀ :: l₁ :: tail := by
          rw [Nat.add_assoc]
          exact @List.take_length_add_append _ [start, command, s₀, s₁, l₀, l₁] rest _
        have hpayload : tail.take length = rest.take length :=
          List.take_take.trans (congrArg (rest.take ·) (Nat.min_eq_left (Nat.le_add_right ..)))
        have houtcome := @readPacket_eq start command s₀ s₁ l₀ l₁ tail htail expected
        rw [show tail.take (Bytes.toNat [l₀, l₁]) = _ from hpayload] at houtcome
        rw [slice_of_le (Nat.zero_le _) (Nat.le_of_not_lt htotal), pure_bind, List.drop_zero,
          show List.take _ _ = _ from hpacket]
        exact houtcome

theorem FrameHeader.read_eq (bytes : Bytes) (limit : Nat) :
    (read bytes limit).run = some (parse bytes limit) := by
  unfold read
  rcases Nat.lt_or_ge bytes.length size with hshort | hlong
  · rw [Cursor.consume_of_lt hshort, parse_of_length_lt limit hshort]
    rfl
  · obtain ⟨c, hheader, -⟩ := Cursor.consume_of_le (by decide) hlong
    rw [hheader]
    match bytes, hlong with
    | start :: flags :: q₀ :: q₁ :: q₂ :: q₃ :: l₀ :: l₁ :: l₂ :: l₃ :: rest, _ =>
      exact run_refuse_bind fun _ => run_refuse_bind fun _ => rfl

theorem FrameHeader.readPayload_eq (h : FrameHeader) (packet : Bytes) :
    (h.readPayload packet).run = some (h.payload packet) := by
  unfold readPayload payload
  refine run_refuse_bind fun hlen => ?_
  rw [run_readBody_bind]
  cases hc : checkedBody packet with
  | error e => rfl
  | ok body =>
    have hsize : size ≤ body.length := by
      rw [eq_withChecksum_of_checkedBody hc, withChecksum, List.length_append, Bytes.length_ofNat,
        packetLen] at hlen
      omega
    dsimp only
    rw [slice_of_le hsize (Nat.le_refl _), List.take_length]
    rfl

theorem BoardInfo.ofBytes_of_length_lt {payload : Bytes} (h : payload.length < size) :
    ofBytes payload = .error (.cursor (.outOfBounds size payload.length)) := by
  unfold ofBytes
  split
  · simp only [List.length_cons, size] at h
    omega
  · rfl

theorem BoardInfo.read_eq (payload : Bytes) : (read payload).run = some (ofBytes payload) := by
  unfold read
  rcases Nat.lt_or_ge payload.length size with hshort | hlong
  · rw [Cursor.consume_of_lt hshort, ofBytes_of_length_lt hshort]
    rfl
  · obtain ⟨c, hheader, hu, -, hleft⟩ := Cursor.consume_of_le (by decide) hlong
    rw [hheader]
    match payload, hlong with
    | v₀ :: v₁ :: p₀ :: p₁ :: n₀ :: n₁ :: major :: minor :: f₀ :: f₁ :: rest, _ =>
      simp only [consumed_ok, pure_bind, size, List.take_succ_cons, List.take_zero]
      cases rest with
      | nil =>
        rw [Cursor.finish_of_remaining hleft]
        rfl
      | cons b rest =>
        have htrailing : c.finish = .error (.trailingData (b :: rest).length) := by
          rw [Cursor.finish_of_pos hu (hleft ▸ Nat.succ_pos _), hleft]
          rfl
        rw [htrailing]
        rfl

end RadarHost
