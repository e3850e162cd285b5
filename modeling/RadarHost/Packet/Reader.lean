import RadarHost.Packet.Stream

/-!
# The reader of a line

A reader holds the bytes that have arrived and gives up the packets that are complete: `take` does
to it what `Packet.takeUntil` does to the bytes that it holds.

A packet may take hundreds of reads. So the latest bytes are kept apart while the first packet is
sure to be incomplete, which its header and the count of bytes tell (`isShort`), and are put behind
the others only when it may be complete. `take_passed`, `take_packet` and `bytes_take` say that this
makes no difference.
-/

namespace RadarHost

/-- The bytes of a line that have arrived and not been taken, and the longest frame payload that
is plausible on it. -/
structure PacketReader where
  /-- The bytes that arrived first. -/
  front : Bytes
  /-- The bytes that arrived after them, last first. -/
  back : Bytes
  /-- How many bytes there are. -/
  size : Nat
  limit : Nat
  size_eq : size = front.length + back.length
  deriving DecidableEq, Repr

namespace PacketReader

/-- The bytes that a reader holds, in the order in which they arrived. -/
def bytes (r : PacketReader) : Bytes := r.front ++ r.back.reverse

/-- A reader that holds the given bytes. -/
def ofBytes (limit : Nat) (bytes : Bytes) : PacketReader := ⟨bytes, [], bytes.length, limit, rfl⟩

/-- A reader without bytes. -/
def empty (limit : Nat) : PacketReader := ofBytes limit []

@[simp] theorem bytes_ofBytes (limit : Nat) (bytes : Bytes) :
    (ofBytes limit bytes).bytes = bytes := by
  simp [ofBytes, PacketReader.bytes]

theorem size_eq_length (r : PacketReader) : r.size = r.bytes.length := by
  simp [bytes, r.size_eq]

/-- More bytes have arrived. -/
def append (r : PacketReader) (bytes : Bytes) : PacketReader where
  front := r.front
  back := bytes.reverseAux r.back
  size := r.size + bytes.length
  limit := r.limit
  size_eq := by rw [List.reverseAux_eq, List.length_append, List.length_reverse, r.size_eq]; omega

@[simp] theorem bytes_append (r : PacketReader) (bytes : Bytes) :
    (r.append bytes).bytes = r.bytes ++ bytes := by
  simp [append, PacketReader.bytes, List.reverseAux_eq]

/-- The length of the packet whose plausible header some bytes begin with. -/
def announced? (limit : Nat) (held : Bytes) : Option Nat :=
  if held.head? = some Packet.replyStart then
    match Reply.packetLen held with
    | .ok total => total
    | .error _ => none
  else
    match FrameHeader.parse held limit with
    | .ok header => some header.packetLen
    | .error _ => none

theorem announced?_append {limit total : Nat} {held : Bytes} (later : Bytes)
    (h : announced? limit held = some total) : announced? limit (held ++ later) = some total := by
  have hd : (held ++ later).head? = held.head? := by
    match held with
    | [] => cases h
    | _ :: _ => rfl
  unfold announced? at h ⊢
  rw [hd]
  by_cases hs : held.head? = some Packet.replyStart
  · rw [if_pos hs] at h ⊢
    split at h
    · rename_i ht
      subst h
      rw [Reply.packetLen_append later ht]
    · cases h
  · rw [if_neg hs] at h ⊢
    split at h
    · rename_i ht
      rw [FrameHeader.parse_append later ht]
      exact h
    · cases h

theorem isStart_of_announced? {limit total : Nat} {held : Bytes}
    (h : announced? limit held = some total) :
    ∃ start tail, held = start :: tail ∧ Packet.isStart start = true := by
  unfold announced? at h
  match held with
  | [] => cases h
  | start :: tail =>
    refine ⟨start, tail, rfl, ?_⟩
    split at h
    · rename_i hs
      simp only [List.head?_cons, Option.some.injEq] at hs
      simp [Packet.isStart, hs]
    · split at h
      · rename_i hp
        unfold FrameHeader.parse at hp
        split at hp
        · rename_i heq
          cases heq
          dsimp only at hp
          split at hp
          · cases hp
          · rename_i hs
            simp only [ne_eq, Decidable.not_not] at hs
            simp [Packet.isStart, hs]
        · cases hp
      · cases h

/-- An announced packet of which bytes are missing is waited for. -/
theorem verdict_of_announced? {limit total : Nat} {held : Bytes}
    (h : announced? limit held = some total) (hl : held.length < total) :
    Packet.verdict limit held = .wait := by
  unfold announced? at h
  unfold Packet.verdict
  split at h
  · rename_i hs
    rw [if_pos hs]
    split at h
    · rename_i ht
      subst h
      simp [ht, hl]
    · cases h
  · rename_i hs
    rw [if_neg hs]
    split at h
    · rename_i ht
      cases h
      simp [ht, hl]
    · cases h

/-- Whether the first packet is sure to be incomplete. -/
def isShort (r : PacketReader) : Bool := (announced? r.limit r.front).any (r.size < ·)

/-- A reader whose first packet is sure to be incomplete has none to give and nothing to skip. -/
theorem next_of_isShort {r : PacketReader} (h : r.isShort = true) :
    Packet.next r.limit r.bytes = ⟨[], none, r.bytes⟩ := by
  simp only [isShort, Option.any_eq_true, decide_eq_true_eq] at h
  obtain ⟨total, ha, hl⟩ := h
  have ha := announced?_append r.back.reverse ha
  change announced? r.limit r.bytes = some total at ha
  have hv := verdict_of_announced? ha (r.size_eq_length ▸ hl)
  obtain ⟨start, tail, hb, hs⟩ := isStart_of_announced? ha
  rw [hb] at hv ⊢
  have hd : (start :: tail).dropWhile (!Packet.isStart ·) = start :: tail := by simp [hs]
  unfold Packet.next
  split
  · rename_i hnil
    rw [hd] at hnil
    cases hnil
  · rename_i hcons
    rw [hd] at hcons
    cases hcons
    rw [hv]
    simp [hs, Packet.noiseBefore]

/-- What taking a wanted packet from a reader gives. -/
structure Taken (π : Type) where
  /-- What was passed over on the way, in order. -/
  passed : List Packet.Passed
  packet : Option π
  /-- The reader with what is left. -/
  reader : PacketReader

/-- Takes packets until one is wanted or none is complete. -/
def take {π : Type} (wanted : Packet → Option π) (r : PacketReader) : Taken π :=
  if r.isShort then ⟨[], none, r⟩
  else
    let w := Packet.takeUntil wanted r.limit r.bytes
    ⟨w.passed, w.packet, ofBytes r.limit w.rest⟩

theorem takeUntil_of_isShort {π : Type} (wanted : Packet → Option π) {r : PacketReader}
    (h : r.isShort = true) :
    Packet.takeUntil wanted r.limit r.bytes = ⟨[], none, r.bytes⟩ := by
  unfold Packet.takeUntil
  split
  · rename_i hn
    rw [next_of_isShort h] at hn
    cases hn
    rfl
  · rename_i hn
    rw [next_of_isShort h] at hn
    cases hn

variable {π : Type} (wanted : Packet → Option π) (r : PacketReader)

theorem take_passed :
    (r.take wanted).passed = (Packet.takeUntil wanted r.limit r.bytes).passed := by
  unfold take
  split
  · rename_i h; rw [takeUntil_of_isShort wanted h]
  · rfl

theorem take_packet :
    (r.take wanted).packet = (Packet.takeUntil wanted r.limit r.bytes).packet := by
  unfold take
  split
  · rename_i h; rw [takeUntil_of_isShort wanted h]
  · rfl

theorem bytes_take :
    (r.take wanted).reader.bytes = (Packet.takeUntil wanted r.limit r.bytes).rest := by
  unfold take
  split
  · rename_i h; rw [takeUntil_of_isShort wanted h]
  · exact bytes_ofBytes ..

@[simp] theorem limit_take : (r.take wanted).reader.limit = r.limit := by
  unfold take
  split <;> rfl

end PacketReader

end RadarHost
