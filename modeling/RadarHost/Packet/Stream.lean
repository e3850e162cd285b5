import RadarHost.Packet.FrameHeader
import RadarHost.Packet.Reply

/-!
# Packets off a byte stream

Packets are taken off the bytes that have arrived as far as they are complete. Bytes that cannot
start a packet are noise and skipped, and so is a start byte with an implausible header. `verdict`
judges bytes that begin with a start byte, `next` takes the next packet, and `takeUntil` takes
packets until one is of the wanted kind. `length_rest_lt_of_packet` says that taking a packet
leaves less, which is why `takeUntil` comes to an end.
-/

namespace RadarHost

/-- A complete packet off the stream, whose checksum has not been looked at. -/
inductive Packet
  | reply (packet : Bytes)
  | frame (header : FrameHeader) (packet : Bytes)
  deriving DecidableEq, Repr

namespace Packet

/-- Whether a byte can start a packet that a board sends. -/
def isStart (b : UInt8) : Bool := b == replyStart || b == frameStart

/-- What bytes that begin with a start byte are. -/
inductive Verdict
  /-- The beginning of a packet; more bytes have to come. -/
  | wait
  /-- A packet of `size` bytes and what follows it. -/
  | take (packet : Packet) (size : Nat)
  /-- No packet: the start byte was noise. -/
  | unlikely
  deriving DecidableEq, Repr

/-- Judges bytes that begin with a start byte, for frame payloads of at most `limit` bytes. A header
of which only the beginning is there has to be waited for. -/
def verdict (limit : Nat) (held : Bytes) : Verdict :=
  if held.head? = some replyStart then
    match Reply.packetLen held with
    | .error _ => .unlikely
    | .ok none => .wait
    | .ok (some total) =>
      if held.length < total then .wait else .take (.reply (held.take total)) total
  else
    match FrameHeader.parse held limit with
    | .error (.cursor _) => .wait
    | .error _ => .unlikely
    | .ok header =>
      if held.length < header.packetLen then .wait
      else .take (.frame header (held.take header.packetLen)) header.packetLen

/-- A run of bytes that was skipped because none of them can start a packet. -/
inductive Noise
  /-- All the bytes there were. -/
  | all (bytes : Nat)
  /-- The bytes before a start byte. -/
  | beforeStart (bytes : Nat)
  deriving DecidableEq, Repr

/-- What taking the next packet gives. -/
structure Next where
  /-- The runs of noise that were skipped, in order. -/
  noise : List Noise
  /-- The packet, if one is complete. -/
  packet : Option Packet
  /-- The bytes that are kept. -/
  rest : Bytes
  deriving DecidableEq, Repr

/-- The noise of `n` bytes before a start byte. -/
def noiseBefore (n : Nat) : List Noise := if n = 0 then [] else [.beforeStart n]

/-- Takes the next complete packet out of the buffered bytes. -/
def next (limit : Nat) (buffer : Bytes) : Next :=
  let skipped := noiseBefore (buffer.takeWhile (!isStart ·)).length
  match _h : buffer.dropWhile (!isStart ·) with
  | [] => ⟨if buffer.isEmpty then [] else [.all buffer.length], none, []⟩
  | start :: tail =>
    match verdict limit (start :: tail) with
    | .wait => ⟨skipped, none, start :: tail⟩
    | .take packet size => ⟨skipped, some packet, (start :: tail).drop size⟩
    | .unlikely =>
      let n := next limit tail
      { n with noise := skipped ++ n.noise }
termination_by buffer.length
decreasing_by
  have := (List.dropWhile_suffix (!isStart ·) (l := buffer)).length_le
  rw [_h] at this
  simp at this
  omega

theorem verdict_take_pos {limit size : Nat} {held : Bytes} {packet : Packet}
    (h : verdict limit held = .take packet size) : 0 < size := by
  unfold verdict at h
  split at h
  · split at h
    · cases h
    · cases h
    · rename_i total ht
      split at h
      · cases h
      · cases h
        unfold Reply.packetLen at ht
        split at ht
        · dsimp only at ht
          split at ht
          · cases ht
          · cases ht; simp only [Reply.headerSize]; omega
        · cases ht
  · split at h
    · cases h
    · cases h
    · split at h
      · cases h
      · cases h; simp only [FrameHeader.packetLen, FrameHeader.size]; omega

/-- Taking a packet leaves less than there was. -/
theorem length_rest_lt_of_packet {limit : Nat} {buffer : Bytes} {packet : Packet}
    (h : (next limit buffer).packet = some packet) :
    (next limit buffer).rest.length < buffer.length := by
  have hdrop := (List.dropWhile_suffix (!isStart ·) (l := buffer)).length_le
  fun_induction next limit buffer with
  | case1 => cases h
  | case2 => cases h
  | case3 buffer _ start tail hd packet' size hv =>
    rw [hd, List.length_cons] at hdrop
    have := verdict_take_pos hv
    simp only [List.length_drop, List.length_cons]
    omega
  | case4 buffer _ start tail hd hv n ih =>
    rw [hd, List.length_cons] at hdrop
    have := ih h (List.dropWhile_suffix (!isStart ·) (l := tail)).length_le
    exact Nat.lt_trans this (by omega)

/-- What a reader does on the way to a wanted packet. -/
inductive Passed
  | noise (noise : Noise)
  /-- A packet of the other kind. -/
  | unwanted (packet : Packet)
  deriving DecidableEq, Repr

/-- What taking the next wanted packet gives. -/
structure Wanted (π : Type) where
  /-- What was passed over on the way, in order. -/
  passed : List Passed
  packet : Option π
  rest : Bytes

/-- Takes packets until one is wanted or none is complete. -/
def takeUntil {π : Type} (wanted : Packet → Option π) (limit : Nat) (buffer : Bytes) :
    Wanted π :=
  match _h : next limit buffer with
  | ⟨noise, none, rest⟩ => ⟨noise.map .noise, none, rest⟩
  | ⟨noise, some packet, rest⟩ =>
    match wanted packet with
    | some p => ⟨noise.map .noise, some p, rest⟩
    | none =>
      let w := takeUntil wanted limit rest
      { w with passed := noise.map .noise ++ .unwanted packet :: w.passed }
termination_by buffer.length
decreasing_by
  have := length_rest_lt_of_packet (congrArg Next.packet _h)
  rwa [_h] at this

/-- The bytes of a reply. -/
def reply? : Packet → Option Bytes
  | reply packet => some packet
  | frame .. => none

/-- The header and the bytes of a frame packet. -/
def frame? : Packet → Option (FrameHeader × Bytes)
  | reply _ => none
  | frame header packet => some (header, packet)

end Packet

end RadarHost
