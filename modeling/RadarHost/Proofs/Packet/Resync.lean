import RadarHost.Frame.Basic
import RadarHost.Proofs.Packet.Wanted

/-!
# Back in step after damage

A stream of frame packets is taken apart where the packets join, as long as the reader stands at
such a join. Other bytes may lead it past the next one: a header among them is taken at its word,
and the packet that it announces may reach into those that follow. `Reaches` says at which places
of a stream a reader comes to stand, and `InStep` whether some bytes bring it to the packet that
comes after them, which the bytes and the first nine that follow them tell (`inStep_iff_reaches`).
It decides whether the packets after the damage are taken as they were sent, each at its place
(`placed_sublist_iff`); a header that still announces the length of its packet is enough for it
(`inStep_of_parse`).
-/

namespace RadarHost

/-! ## Frame packets -/

namespace Frame

variable {limit : Nat} {f : Frame}

/-- What the packet of a frame says before the payload. -/
def header (f : Frame) : FrameHeader := ⟨f.flags, f.sequence, UInt32.ofNat f.payload.length⟩

/-- The packet of a frame. -/
def packet (f : Frame) : Bytes :=
  Packet.withChecksum (Packet.frameStart :: f.flags ::
    (Bytes.ofNat 4 f.sequence.toNat ++ Bytes.ofNat 4 f.payload.length ++ f.payload))

/-- A frame whose payload is plausible under a limit. -/
def Fits (limit : Nat) (f : Frame) : Prop := f.payload.length ≤ FrameHeader.maxPayload limit

theorem Fits.le (h : f.Fits limit) : f.payload.length ≤ Packet.maxFramePayload :=
  le_trans h (min_le_right _ _)

/-- The packet is what encoding the frame gives. -/
theorem encode_eq (h : f.Fits limit) :
    FrameHeader.encode f.flags f.sequence f.payload = .ok f.packet := by
  unfold FrameHeader.encode
  rw [if_neg (Nat.not_lt_of_le h.le)]
  rfl

theorem payloadLen_header (h : f.Fits limit) : f.header.payloadLen.toNat = f.payload.length := by
  have hm : Packet.maxFramePayload = 0x100000 := rfl
  have := h.le
  exact UInt32.toNat_ofNat_of_lt' (by simp only [UInt32.size]; omega)

theorem length_packet (h : f.Fits limit) : f.packet.length = f.header.packetLen := by
  unfold packet FrameHeader.packetLen Packet.withChecksum FrameHeader.size
  rw [payloadLen_header h]
  simp only [List.length_append, List.length_cons, Bytes.length_ofNat]
  omega

theorem parse_packet (h : f.Fits limit) (later : Bytes) :
    FrameHeader.parse (f.packet ++ later) limit = .ok f.header := by
  have hc : f.payload.length < Bytes.capacity 4 :=
    lt_of_le_of_lt h.le (by decide)
  have hl : Bytes.toNat (Bytes.ofNat 4 f.payload.length) = f.payload.length :=
    Bytes.toNat_ofNat hc
  have hs : Bytes.toNat (Bytes.ofNat 4 f.sequence.toNat) = f.sequence.toNat :=
    Bytes.toNat_ofNat f.sequence.toNat_lt
  let l := Bytes.toNat (Bytes.ofNat 4 f.payload.length)
  show (if Packet.frameStart ≠ Packet.frameStart then
      Except.error (PacketError.invalidStart Packet.frameStart Packet.frameStart)
    else if FrameHeader.maxPayload limit < l then
      Except.error (PacketError.payloadTooLarge l (FrameHeader.maxPayload limit))
    else Except.ok (FrameHeader.mk f.flags
      (UInt32.ofNat (Bytes.toNat (Bytes.ofNat 4 f.sequence.toNat))) (UInt32.ofNat l))) = _
  rw [show l = f.payload.length from hl, hs, if_neg (by simp), if_neg (Nat.not_lt_of_le h),
    UInt32.ofNat_toNat]
  rfl

/-- The packet of a frame is undamaged. -/
theorem payload_packet (h : f.Fits limit) : f.header.payload f.packet = .ok f.payload := by
  unfold FrameHeader.payload
  rw [if_neg (by rw [length_packet h]; simp), packet, Packet.checkedBody_withChecksum]
  rfl

end Frame

/-! ## Headers that are not all there -/

/-- A length is announced by the first six bytes. -/
theorem Reply.length_lt_of_packetLen_none {bytes : Bytes} (h : packetLen bytes = .ok none) :
    bytes.length < headerSize := by
  match bytes with
  | [] | [_] | [_, _] | [_, _, _] | [_, _, _, _] | [_, _, _, _, _] => simp [headerSize]
  | _ :: _ :: _ :: _ :: _ :: _ :: _ =>
    dsimp only [packetLen] at h
    split at h <;> cases h

/-- A header is told by the first ten bytes. -/
theorem FrameHeader.length_lt_of_parse_cursor {bytes : Bytes} {limit : Nat} {c : CursorError}
    (h : parse bytes limit = .error (.cursor c)) : bytes.length < size := by
  match bytes with
  | [] | [_] | [_, _] | [_, _, _] | [_, _, _, _] | [_, _, _, _, _] | [_, _, _, _, _, _]
  | [_, _, _, _, _, _, _] | [_, _, _, _, _, _, _, _] | [_, _, _, _, _, _, _, _, _] => simp [size]
  | _ :: _ :: _ :: _ :: _ :: _ :: _ :: _ :: _ :: _ :: _ =>
    dsimp only [parse] at h
    split at h
    · cases h
    · split at h <;> cases h

theorem FrameHeader.parse_of_length_lt {bytes : Bytes} (limit : Nat) (h : bytes.length < size) :
    parse bytes limit = .error (.cursor (.outOfBounds size bytes.length)) := by
  unfold parse
  split
  · simp only [List.length_cons, size] at h
    omega
  · rfl

theorem FrameHeader.head?_of_parse {bytes : Bytes} {limit : Nat} {header : FrameHeader}
    (h : parse bytes limit = .ok header) : bytes.head? = some Packet.frameStart := by
  unfold parse at h
  split at h
  · dsimp only at h
    split at h
    · cases h
    · rename_i hs
      rw [ne_eq, Decidable.not_not] at hs
      rw [hs]
      rfl
  · cases h

namespace Packet

variable {limit : Nat} {f : Frame}

/-- The bytes of a packet. -/
def bytes : Packet → Bytes
  | reply packet => packet
  | frame _ packet => packet

theorem bytes_of_verdict {held : Bytes} {packet : Packet} {size : Nat}
    (h : verdict limit held = .take packet size) : packet.bytes = held.take size := by
  unfold verdict at h
  split at h
  · split at h
    · cases h
    · cases h
    · split at h
      · cases h
      · cases h; rfl
  · split at h
    · cases h
    · cases h
    · split at h
      · cases h
      · cases h; rfl

theorem head?_of_verdict_reply {held packet : Bytes} {size : Nat}
    (h : verdict limit held = .take (.reply packet) size) : held.head? = some replyStart := by
  unfold verdict at h
  split at h
  · assumption
  · split at h
    · cases h
    · cases h
    · split at h <;> cases h

theorem verdict_of_parse {held : Bytes} {header : FrameHeader}
    (h : FrameHeader.parse held limit = .ok header) (hl : header.packetLen ≤ held.length) :
    verdict limit held = .take (.frame header (held.take header.packetLen)) header.packetLen := by
  have hs : held.head? ≠ some replyStart := by
    rw [FrameHeader.head?_of_parse h]
    decide
  unfold verdict
  rw [if_neg hs, h]
  dsimp only
  rw [if_neg (Nat.not_lt_of_le hl)]

theorem verdict_packet (h : f.Fits limit) (later : Bytes) :
    verdict limit (f.packet ++ later) = .take (.frame f.header f.packet) f.packet.length := by
  have hl : f.header.packetLen ≤ (f.packet ++ later).length := by
    rw [List.length_append, Frame.length_packet h]
    exact Nat.le_add_right _ _
  rw [verdict_of_parse (Frame.parse_packet h later) hl, ← Frame.length_packet h, List.take_left]

/-- The packets of frames, one after the other. -/
def stream (fs : List Frame) : Bytes := fs.flatMap Frame.packet

/-- The packets of frames, each with the bytes that follow it when they are sent one after the other
and then `later`. -/
def placed : List Frame → (later : Bytes) → List ((FrameHeader × Bytes) × Bytes)
  | [], _ => []
  | f :: fs, later => ((f.header, f.packet), stream fs ++ later) :: placed fs later

/-! ## Where a reader comes to stand -/

/-- A reader of some bytes comes to stand at `place`: it skips noise and start bytes that start
nothing, and takes packets. -/
inductive Reaches (limit : Nat) (place : Bytes) : Bytes → Prop
  | here : Reaches limit place place
  | noise {b : UInt8} {tail : Bytes} (hs : isStart b = false) (h : Reaches limit place tail) :
    Reaches limit place (b :: tail)
  | unlikely {b : UInt8} {tail : Bytes} (hs : isStart b = true)
    (hv : verdict limit (b :: tail) = .unlikely) (h : Reaches limit place tail) :
    Reaches limit place (b :: tail)
  | take {b : UInt8} {tail : Bytes} {packet : Packet} {size : Nat} (hs : isStart b = true)
    (hv : verdict limit (b :: tail) = .take packet size)
    (h : Reaches limit place ((b :: tail).drop size)) : Reaches limit place (b :: tail)

section

variable {π : Type} {place buffer tail : Bytes} {b : UInt8} {packet : Packet} {size : Nat}

theorem taken_cons_of_noise (hs : isStart b = false) :
    (next limit (b :: tail)).taken = (next limit tail).taken :=
  taken_congr (by rw [List.dropWhile_cons_of_pos (by simp [hs])])

theorem taken_cons_of_wait (hs : isStart b = true) (hv : verdict limit (b :: tail) = .wait) :
    (next limit (b :: tail)).taken = (none, b :: tail) :=
  taken_of_wait (List.dropWhile_cons_of_neg (by simp [hs])) hv

theorem taken_cons_of_take (hs : isStart b = true)
    (hv : verdict limit (b :: tail) = .take packet size) :
    (next limit (b :: tail)).taken = (some packet, (b :: tail).drop size) :=
  taken_of_take (List.dropWhile_cons_of_neg (by simp [hs])) hv

theorem taken_cons_of_unlikely (hs : isStart b = true)
    (hv : verdict limit (b :: tail) = .unlikely) :
    (next limit (b :: tail)).taken = (next limit tail).taken :=
  taken_of_unlikely (List.dropWhile_cons_of_neg (by simp [hs])) hv

/-- A packet that is there begins with a start byte. -/
theorem exists_start_of_verdict {held : Bytes} (hv : verdict limit held = .take packet size) :
    ∃ b tail, held = b :: tail ∧ isStart b = true := by
  unfold verdict at hv
  cases held with
  | nil => cases hv
  | cons b tail =>
    refine ⟨b, tail, rfl, ?_⟩
    split at hv
    · rename_i hs
      rw [Option.some.inj hs]
      rfl
    · split at hv
      · cases hv
      · cases hv
      · rename_i hp
        rw [Option.some.inj (FrameHeader.head?_of_parse hp)]
        rfl

theorem taken_of_verdict {held : Bytes} (hv : verdict limit held = .take packet size) :
    (next limit held).taken = (some packet, held.drop size) := by
  obtain ⟨b, tail, rfl, hs⟩ := exists_start_of_verdict hv
  exact taken_cons_of_take hs hv

theorem reaches_of_verdict {held : Bytes} (hv : verdict limit held = .take packet size) :
    Reaches limit (held.drop size) held := by
  obtain ⟨b, tail, rfl, hs⟩ := exists_start_of_verdict hv
  exact .take hs hv .here

/-- Induction along the steps of a reader. -/
@[elab_as_elim]
theorem reader_induction {motive : Bytes → Prop} (limit : Nat) (buffer : Bytes) (nil : motive [])
    (noise : ∀ b tail, isStart b = false → motive tail → motive (b :: tail))
    (wait : ∀ b tail, isStart b = true → verdict limit (b :: tail) = .wait → motive (b :: tail))
    (unlikely : ∀ b tail, isStart b = true → verdict limit (b :: tail) = .unlikely →
      motive tail → motive (b :: tail))
    (take : ∀ b tail packet size, isStart b = true →
      verdict limit (b :: tail) = .take packet size → motive ((b :: tail).drop size) →
      motive (b :: tail)) : motive buffer := by
  induction hn : buffer.length using Nat.strongRecOn generalizing buffer with
  | ind n ih =>
    subst hn
    cases buffer with
    | nil => exact nil
    | cons b tail =>
      cases hs : isStart b with
      | false => exact noise b tail hs (ih _ (Nat.lt_succ_self _) tail rfl)
      | true =>
        cases hv : verdict limit (b :: tail) with
        | wait => exact wait b tail hs hv
        | unlikely => exact unlikely b tail hs hv (ih _ (Nat.lt_succ_self _) tail rfl)
        | take packet size =>
          exact take b tail packet size hs hv
            (ih _ (length_lt_of_taken (taken_cons_of_take hs hv)) _ rfl)

theorem Reaches.suffix (h : Reaches limit place buffer) : place <:+ buffer := by
  induction h with
  | here => exact List.suffix_refl _
  | noise _ _ ih => exact ih.trans (List.suffix_cons _ _)
  | unlikely _ _ _ ih => exact ih.trans (List.suffix_cons _ _)
  | take _ _ _ ih => exact ih.trans (List.drop_suffix _ _)

theorem Reaches.length_le (h : Reaches limit place buffer) : place.length ≤ buffer.length :=
  h.suffix.length_le

/-- Whatever follows, a reader comes to the places to which it came without it. -/
theorem Reaches.append (later : Bytes) (h : Reaches limit place buffer) :
    Reaches limit (place ++ later) (buffer ++ later) := by
  induction h with
  | here => exact .here
  | noise hs _ ih => exact .noise hs ih
  | unlikely hs hv _ ih => exact .unlikely hs (verdict_append_of_unlikely later hv) ih
  | take hs hv _ ih =>
    obtain ⟨hv', hl⟩ := verdict_append_of_take later hv
    rw [← List.drop_append_of_le_length hl] at ih
    exact .take hs hv' ih

/-- A reader comes to stand at what the framing leaves. -/
theorem reaches_rest (limit : Nat) (buffer : Bytes) :
    Reaches limit (framing limit buffer).rest buffer := by
  induction buffer using reader_induction limit with
  | nil => rw [framing_nil]; exact .here
  | noise b tail hs ih => rw [framing_congr (taken_cons_of_noise hs)]; exact .noise hs ih
  | wait b tail hs hv => rw [framing_of_none (taken_cons_of_wait hs hv)]; exact .here
  | unlikely b tail hs hv ih =>
    rw [framing_congr (taken_cons_of_unlikely hs hv)]
    exact .unlikely hs hv ih
  | take b tail packet size hs hv ih =>
    rw [framing_of_some (taken_cons_of_take hs hv)]
    exact .take hs hv ih

/-- How far a reader has come makes no difference to what is left in the end. -/
theorem Reaches.rest_eq (h : Reaches limit place buffer) :
    (framing limit buffer).rest = (framing limit place).rest := by
  induction h with
  | here => rfl
  | noise hs _ ih => rw [framing_congr (taken_cons_of_noise hs), ih]
  | unlikely hs hv _ ih => rw [framing_congr (taken_cons_of_unlikely hs hv), ih]
  | take hs hv _ ih => rw [framing_of_some (taken_cons_of_take hs hv), ← ih]

/-- The wanted packets from a place to which a reader comes are the last ones. -/
theorem Reaches.allWanted_suffix (wanted : Packet → Option π) (h : Reaches limit place buffer) :
    allWanted wanted limit place <:+ allWanted wanted limit buffer := by
  induction h with
  | here => exact List.suffix_refl _
  | noise hs _ ih => rwa [allWanted_congr (wanted_congr (taken_cons_of_noise hs))]
  | unlikely hs hv _ ih => rwa [allWanted_congr (wanted_congr (taken_cons_of_unlikely hs hv))]
  | take hs hv _ ih =>
    rw [allWanted_of_packet (taken_cons_of_take hs hv)]
    exact ih.trans (List.suffix_append _ _)

/-- A reader comes to stand at every packet that it takes. -/
theorem reaches_of_mem_allWanted {wanted : Packet → Option π} {p : π} {rest : Bytes}
    (h : (p, rest) ∈ allWanted wanted limit buffer) :
    ∃ place packet size, Reaches limit place buffer ∧ verdict limit place = .take packet size ∧
      wanted packet = some p ∧ rest = place.drop size := by
  induction buffer using reader_induction limit with
  | nil => rw [allWanted_of_none (wanted_of_none (taken_of_noise rfl))] at h; cases h
  | noise b tail hs ih =>
    rw [allWanted_congr (wanted_congr (taken_cons_of_noise hs))] at h
    obtain ⟨place, packet, size, hr, hp⟩ := ih h
    exact ⟨place, packet, size, .noise hs hr, hp⟩
  | wait b tail hs hv =>
    rw [allWanted_of_none (wanted_of_none (taken_cons_of_wait hs hv))] at h
    cases h
  | unlikely b tail hs hv ih =>
    rw [allWanted_congr (wanted_congr (taken_cons_of_unlikely hs hv))] at h
    obtain ⟨place, packet, size, hr, hp⟩ := ih h
    exact ⟨place, packet, size, .unlikely hs hv hr, hp⟩
  | take b tail packet size hs hv ih =>
    rw [allWanted_of_packet (taken_cons_of_take hs hv), List.mem_append] at h
    rcases h with h | h
    · simp only [Option.mem_toList, Option.map_eq_some_iff, Prod.mk.injEq] at h
      obtain ⟨p', hw, rfl, rfl⟩ := h
      exact ⟨b :: tail, packet, size, .here, hv, hw, rfl⟩
    · obtain ⟨place, packet', size', hr, hp⟩ := ih h
      exact ⟨place, packet', size', .take hs hv hr, hp⟩

/-! ## What a header decides -/

/-- With its header there, a packet that is waited for is known to be longer than what there is. -/
theorem verdict_append_of_wait (later : Bytes) (hl : FrameHeader.size ≤ buffer.length)
    (hw : verdict limit buffer = .wait) :
    verdict limit (buffer ++ later) = .wait ∨
      ∃ packet size, verdict limit (buffer ++ later) = .take packet size ∧
        buffer.length < size := by
  have hne : buffer ≠ [] := by
    rintro rfl
    cases hl
  unfold verdict at hw ⊢
  rw [List.head?_append_of_ne_nil buffer hne]
  by_cases hs : buffer.head? = some replyStart
  · rw [if_pos hs] at hw ⊢
    split at hw
    · cases hw
    · rename_i ht
      exact absurd (hl.trans_lt (Reply.length_lt_of_packetLen_none ht)) (by decide)
    · rename_i total ht
      split at hw
      · rename_i hlt
        rw [Reply.packetLen_append later ht]
        dsimp only
        split
        · exact .inl rfl
        · exact .inr ⟨_, _, rfl, hlt⟩
      · cases hw
  · rw [if_neg hs] at hw ⊢
    split at hw
    · rename_i ht
      exact absurd (FrameHeader.length_lt_of_parse_cursor ht) (Nat.not_lt_of_le hl)
    · cases hw
    · rename_i header ht
      split at hw
      · rename_i hlt
        rw [FrameHeader.parse_append later ht]
        dsimp only
        split
        · exact .inl rfl
        · exact .inr ⟨_, _, rfl, hlt⟩
      · cases hw

/-- A start byte that is noise with what follows its header is so without it. -/
theorem verdict_of_append_unlikely {later : Bytes} (hl : FrameHeader.size ≤ buffer.length)
    (h : verdict limit (buffer ++ later) = .unlikely) : verdict limit buffer = .unlikely := by
  cases hv : verdict limit buffer with
  | wait =>
    rcases verdict_append_of_wait later hl hv with h' | ⟨_, _, h', _⟩
    · cases h.symm.trans h'
    · cases h.symm.trans h'
  | take packet size => cases h.symm.trans (verdict_append_of_take later hv).1
  | unlikely => rfl

/-- A packet that does not reach into what follows is there without it. -/
theorem verdict_of_append_take {later : Bytes} (hl : FrameHeader.size ≤ buffer.length)
    (hsize : size ≤ buffer.length) (h : verdict limit (buffer ++ later) = .take packet size) :
    verdict limit buffer = .take packet size := by
  cases hv : verdict limit buffer with
  | wait =>
    rcases verdict_append_of_wait later hl hv with h' | ⟨_, _, h', hlt⟩
    · cases h.symm.trans h'
    · cases h.symm.trans h'
      exact absurd hlt (Nat.not_lt_of_le hsize)
  | take packet' size' => exact (verdict_append_of_take later hv).1.symm.trans h
  | unlikely => cases h.symm.trans (verdict_append_of_unlikely later hv)

theorem exists_cons_of_append {later : Bytes} (h : buffer ++ later = b :: tail)
    (hl : later.length ≤ tail.length) : ∃ front, buffer = b :: front ∧ tail = front ++ later := by
  cases buffer with
  | nil =>
    rw [show later = b :: tail from h] at hl
    exact absurd hl (Nat.not_succ_le_self _)
  | cons b' front =>
    cases h
    exact ⟨front, rfl, rfl⟩

/-- A place at which there are all but one byte of a header, or more, is reached without what
follows if it is reached with it. -/
theorem Reaches.of_append {later : Bytes} (hp : FrameHeader.size ≤ place.length + 1)
    (h : Reaches limit (place ++ later) (buffer ++ later)) : Reaches limit place buffer := by
  have hpos : 0 < place.length := by simp only [FrameHeader.size] at hp; omega
  generalize hb : buffer ++ later = whole at h
  induction h generalizing buffer with
  | here =>
    obtain rfl := List.append_cancel_right hb
    exact .here
  | noise hs h ih =>
    have hlen := h.length_le
    rw [List.length_append] at hlen
    obtain ⟨front, rfl, rfl⟩ := exists_cons_of_append hb (by omega)
    exact .noise hs (ih rfl)
  | unlikely hs hv h ih =>
    have hlen := h.length_le
    rw [List.length_append] at hlen
    obtain ⟨front, rfl, rfl⟩ := exists_cons_of_append hb (by omega)
    rw [List.length_append] at hlen
    exact .unlikely hs
      (verdict_of_append_unlikely (by rw [List.length_cons]; omega) (hb ▸ hv)) (ih rfl)
  | @take b tail packet size hs hv h ih =>
    have hlen := h.length_le
    have hsize := verdict_take_pos hv
    rw [List.length_append, List.length_drop, List.length_cons] at hlen
    obtain ⟨front, rfl, rfl⟩ := exists_cons_of_append hb (by omega)
    rw [List.length_append] at hlen
    have hin : size ≤ (b :: front).length := by rw [List.length_cons]; omega
    exact .take hs (verdict_of_append_take (by rw [List.length_cons]; omega) hin (hb ▸ hv))
      (ih (List.drop_append_of_le_length hin).symm)

end

/-! ## The packets after the damage -/

section

variable {damaged : Bytes} {fs after : List Frame}

theorem taken_packet (h : f.Fits limit) (later : Bytes) :
    (next limit (f.packet ++ later)).taken = (some (.frame f.header f.packet), later) := by
  have ht := taken_of_verdict (verdict_packet h later)
  rwa [List.drop_left] at ht

/-- Intact frame packets are taken one by one, each at its place. -/
theorem allWanted_stream (h : ∀ f ∈ fs, f.Fits limit) (later : Bytes) :
    allWanted frame? limit (stream fs ++ later) =
      placed fs later ++ allWanted frame? limit later := by
  induction fs with
  | nil => rfl
  | cons f fs ih =>
    obtain ⟨hf, hfs⟩ := List.forall_mem_cons.1 h
    show allWanted frame? limit (f.packet ++ stream fs ++ later) = _
    rw [List.append_assoc, allWanted_of_packet (taken_packet hf _), ih hfs]
    rfl

/-- Some bytes bring a reader to the packet that comes after them: of them and the bytes of `later`
that are one less than a header, nothing is left but those bytes of `later`. -/
def InStep (limit : Nat) (damaged later : Bytes) : Prop :=
  (framing limit (damaged ++ later.take (FrameHeader.size - 1))).rest =
    later.take (FrameHeader.size - 1)

instance (limit : Nat) (damaged later : Bytes) : Decidable (InStep limit damaged later) :=
  inferInstanceAs (Decidable (_ = _))

/-- The beginning of a header is kept. -/
theorem framing_of_short {held : Bytes} (hs : held.head? = some frameStart)
    (hl : held.length < FrameHeader.size) : framing limit held = ⟨[], held⟩ := by
  cases held with
  | nil => cases hs
  | cons b tail =>
    cases hs
    refine framing_of_none (taken_cons_of_wait rfl ?_)
    have hr : (frameStart :: tail).head? ≠ some replyStart := by
      rw [List.head?_cons]
      decide
    unfold verdict
    rw [if_neg hr, FrameHeader.parse_of_length_lt limit hl]

theorem inStep_iff_reaches (h : f.Fits limit) (later : Bytes) :
    InStep limit damaged (f.packet ++ later) ↔
      Reaches limit (f.packet ++ later) (damaged ++ (f.packet ++ later)) := by
  let start := (f.packet ++ later).take (FrameHeader.size - 1)
  have hwhole : start ++ (f.packet ++ later).drop (FrameHeader.size - 1) = f.packet ++ later :=
    List.take_append_drop _ _
  have hlen : start.length = FrameHeader.size - 1 := by
    have := Frame.length_packet h
    simp only [start, List.length_take, List.length_append, this, FrameHeader.packetLen]
    omega
  constructor
  · intro hin
    have hr := (reaches_rest limit (damaged ++ start)).append
      ((f.packet ++ later).drop (FrameHeader.size - 1))
    rwa [hin, List.append_assoc, hwhole] at hr
  · intro hr
    rw [← hwhole, ← List.append_assoc] at hr
    have hstart : framing limit start = ⟨[], start⟩ :=
      framing_of_short rfl (by rw [hlen]; decide)
    exact (hr.of_append (by rw [hlen]; decide)).rest_eq.trans (congrArg Framing.rest hstart)

/-- Damage after which there is still a header that announces the length of the packet brings the
reader to the next one. -/
theorem inStep_of_parse {header : FrameHeader} (h : f.Fits limit) (later : Bytes)
    (hp : FrameHeader.parse damaged limit = .ok header)
    (hl : header.packetLen = damaged.length) : InStep limit damaged (f.packet ++ later) := by
  rw [inStep_iff_reaches h]
  have hv := (verdict_append_of_take (f.packet ++ later) (verdict_of_parse hp hl.le)).1
  have hr := reaches_of_verdict hv
  rwa [hl, List.drop_left] at hr

/-- The packets after some bytes are taken as they were sent, each at its place, if and only if
there are none or the bytes bring the reader to the first one. -/
theorem placed_sublist_iff (h : ∀ f ∈ after, f.Fits limit) :
    (placed after []).Sublist (allWanted frame? limit (damaged ++ stream after)) ↔
      after = [] ∨ InStep limit damaged (stream after) := by
  cases after with
  | nil => exact ⟨fun _ => .inl rfl, fun _ => List.nil_sublist _⟩
  | cons f fs =>
    have hf : f.Fits limit := h f List.mem_cons_self
    show _ ↔ f :: fs = [] ∨ InStep limit damaged (f.packet ++ stream fs)
    rw [inStep_iff_reaches hf]
    constructor
    · intro hsub
      obtain ⟨place, packet, size, hr, hv, hw, hrest⟩ :=
        reaches_of_mem_allWanted (hsub.subset List.mem_cons_self)
      have hb := bytes_of_verdict hv
      cases packet with
      | reply packet => cases hw
      | frame header packet =>
        cases hw
        have hplace : f.packet ++ (stream fs ++ []) = place := by
          rw [hrest, show f.packet = place.take size from hb, List.take_append_drop]
        rw [List.append_nil] at hplace
        rw [← hplace] at hr
        exact .inr hr
    · rintro (hn | hr)
      · cases hn
      · have hs := hr.allWanted_suffix frame?
        rw [show f.packet ++ stream fs = stream (f :: fs) ++ [] from
          (List.append_nil (stream (f :: fs))).symm, allWanted_stream h] at hs
        rw [show stream (f :: fs) = stream (f :: fs) ++ [] from (List.append_nil _).symm]
        exact (List.sublist_append_left _ _).trans hs.sublist

end

end Packet

end RadarHost
