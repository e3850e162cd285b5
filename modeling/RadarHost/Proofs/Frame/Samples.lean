import Mathlib.Tactic.Ring
import RadarHost.Frame.Samples
import RadarHost.Proofs.Buffer.Reading
import RadarHost.Proofs.Word.Masks

/-!
# Samples off a payload

`FrameLayout.expectedPayloadLen_eq` says when the length of a payload can be counted, and what it is
then; `givesAll_of_remaining` that a cursor over a payload of that length gives every sample that
the format describes and is at its end then. The packed format is read off the payload as one number
(`consumePairs_eq`): taking bytes off its front divides that number (`Bytes.toNat_drop`).
`decodeSamples_reads` puts them together: three reasons to refuse a payload, in this order, and no
other.
-/

namespace RadarHost

/-! ## Bytes as one number -/

namespace Bytes

theorem toNat_drop (b : Bytes) (count : Nat) :
    toNat (b.drop count) = toNat b / 256 ^ count := by
  induction count generalizing b with
  | zero => rw [List.drop_zero, pow_zero, Nat.div_one]
  | succ count ih =>
    cases b with
    | nil => rw [List.drop_nil, toNat, Nat.zero_div]
    | cons x rest =>
      have hrest : (x.toNat + 256 * toNat rest) / 256 = toNat rest := by
        have := x.toNat_lt
        omega
      rw [List.drop_succ_cons, ih, toNat, pow_succ', ← Nat.div_div_eq_div_mul, hrest]

theorem toNat_take (b : Bytes) (count : Nat) :
    toNat (b.take count) = toNat b % 256 ^ count := by
  induction count generalizing b with
  | zero => rw [List.take_zero, toNat, pow_zero, Nat.mod_one]
  | succ count ih =>
    cases b with
    | nil => rw [List.take_nil, toNat, Nat.zero_mod]
    | cons x rest =>
      have hx := x.toNat_lt
      have hlow : (x.toNat + 256 * toNat rest) % 256 = x.toNat := by omega
      have hrest : (x.toNat + 256 * toNat rest) / 256 = toNat rest := by omega
      rw [List.take_succ_cons, toNat, toNat, ih, pow_succ', Nat.mod_mul, hlow, hrest]

end Bytes

namespace FrameLayout

variable {l : FrameLayout} {c : Cursor} {payload : Bytes} {count pairs : Nat}

theorem toNat_maskSample (bits : Nat) (sample : UInt16) :
    (maskSample bits sample).toNat = sample.toNat % 2 ^ min bits 16 :=
  Word.toNat_keepLow sample.toBitVec bits

/-- Two bytes are a word as they are a number. -/
theorem toNat_pair (bytes : Bytes) :
    (UInt16.ofNat (Bytes.toNat (bytes.take 2))).toNat = Bytes.toNat (bytes.take 2) := by
  rw [Bytes.toNat_take]
  exact UInt16.toNat_ofNat_of_lt' (Nat.mod_lt _ (by decide))

/-- The mask of a packed sample. -/
theorem mask_packed : Word.mask 32 12 0 = .ok 0xFFF#32 := rfl

theorem toNat_and_mask (v : BitVec 32) : (v &&& 0xFFF#32).toNat = v.toNat % 2 ^ 12 := by
  rw [BitVec.toNat_and]
  exact Nat.and_two_pow_sub_one_eq_mod v.toNat 12

/-! ## Counts -/

/-- The samples that each antenna takes for a frame. -/
def antennaSamples (l : FrameLayout) : Nat := l.numChirps * l.numSamplesPerChirp

/-- The samples of a frame, those of all antennas together. -/
def frameSamples (l : FrameLayout) : Nat := l.numRx * l.numChirps * l.numSamplesPerChirp

/-- The bytes that a count of samples takes: two for each, or three for each pair that is begun. -/
def bytesOf (l : FrameLayout) (count : Nat) : Nat :=
  match l.sampleFormat with
  | .u16 => 2 * count
  | .packed12 => 3 * ((count + 1) / 2)

/-- The bytes of a frame's payload, however many they are. -/
def payloadSize (l : FrameLayout) : Nat := l.bytesOf l.frameSamples

/-- The size of a payload and every product on the way to it can be addressed. -/
def Addressable (l : FrameLayout) : Prop :=
  l.antennaSamples ≤ largestSize ∧ l.frameSamples ≤ largestSize ∧ l.payloadSize ≤ largestSize

instance (l : FrameLayout) : Decidable l.Addressable := inferInstanceAs (Decidable (_ ∧ _))

theorem numRx_eq_zero_iff (l : FrameLayout) : l.numRx = 0 ↔ l.rxMask = 0 := by
  rw [numRx, Word.countOnes, List.countP_eq_zero]
  constructor
  · intro h
    refine UInt32.toBitVec_inj.1 (BitVec.eq_of_getLsbD_eq fun i hi => ?_)
    rw [Bool.eq_false_iff.2 (h i (List.mem_range.2 hi))]
    exact BitVec.getLsbD_zero.symm
  · intro h i _
    rw [h]
    exact Bool.eq_false_iff.1 BitVec.getLsbD_zero

theorem frameSamples_eq (l : FrameLayout) : l.frameSamples = l.antennaSamples * l.numRx := by
  rw [antennaSamples, frameSamples]
  ring

theorem samplesPerAntenna_eq (l : FrameLayout) :
    l.samplesPerAntenna = addressable l.antennaSamples := rfl

theorem samplesPerFrame_eq (l : FrameLayout) :
    l.samplesPerFrame =
      if l.antennaSamples ≤ largestSize ∧ l.frameSamples ≤ largestSize then .ok l.frameSamples
      else .error .tooLarge := by
  rw [samplesPerFrame, samplesPerAntenna_eq, addressable, frameSamples_eq]
  by_cases hn : l.antennaSamples ≤ largestSize
  · simp only [hn, if_true, true_and]
    rfl
  · simp only [hn, if_false, false_and]
    rfl

/-- The size of a payload is counted as long as everything on the way can be addressed. -/
theorem expectedPayloadLen_eq (l : FrameLayout) :
    l.expectedPayloadLen = if l.Addressable then .ok l.payloadSize else .error .tooLarge := by
  have hsize : (match l.sampleFormat with
      | .u16 => addressable (l.frameSamples * 2)
      | .packed12 => addressable ((l.frameSamples + 1) / 2 * 3)) = addressable l.payloadSize := by
    rw [payloadSize, bytesOf]
    cases l.sampleFormat with
    | u16 => exact congrArg addressable (Nat.mul_comm ..)
    | packed12 => exact congrArg addressable (Nat.mul_comm ..)
  rw [expectedPayloadLen, samplesPerFrame_eq]
  by_cases ha : l.Addressable
  · rw [if_pos ha, if_pos ⟨ha.1, ha.2.1⟩]
    exact hsize.trans (if_pos ha.2.2)
  · rw [if_neg ha]
    by_cases h : l.antennaSamples ≤ largestSize ∧ l.frameSamples ≤ largestSize
    · rw [if_pos h]
      exact hsize.trans (if_neg fun hp => ha ⟨h.1, h.2, hp⟩)
    · rw [if_neg h]
      rfl

/-! ## Samples -/

/-- The number that the format describes for the sample at `place`: two bytes, of which the lowest
bits count, or twelve bits of the whole payload read as one number. -/
def written (l : FrameLayout) (payload : Bytes) (place : Nat) : Nat :=
  match l.sampleFormat with
  | .u16 => Bytes.toNat ((payload.drop (2 * place)).take 2) % 2 ^ min l.sampleBits 16
  | .packed12 => Bytes.toNat payload / 2 ^ (12 * place) % 2 ^ 12

/-- The sample at `place` of packed ones. -/
def packedSample (payload : Bytes) (place : Nat) : UInt16 :=
  UInt16.ofNat (Bytes.toNat payload / 2 ^ (12 * place) % 2 ^ 12)

theorem toNat_packedSample (payload : Bytes) (place : Nat) :
    (packedSample payload place).toNat = Bytes.toNat payload / 2 ^ (12 * place) % 2 ^ 12 := by
  have hlt := Nat.mod_lt (Bytes.toNat payload / 2 ^ (12 * place)) (Nat.two_pow_pos 12)
  exact UInt16.toNat_ofNat_of_lt' (hlt.trans (by decide))

/-- Behind the first pair, every sample comes two places earlier. -/
theorem packedSample_drop (payload : Bytes) (place : Nat) :
    packedSample (payload.drop 3) place = packedSample payload (place + 2) := by
  have hpow : 256 ^ 3 * 2 ^ (12 * place) = 2 ^ (12 * (place + 2)) := by ring
  rw [packedSample, packedSample, Bytes.toNat_drop, Nat.div_div_eq_div_mul, hpow]

/-- Three bytes hold the first pair. -/
theorem packedSample_take (payload : Bytes) :
    let word := BitVec.ofNat 32 (Bytes.toNat (payload.take 3))
    UInt16.ofNat (word &&& 0xFFF#32).toNat = packedSample payload 0 ∧
      UInt16.ofNat ((word >>> 12) &&& 0xFFF#32).toNat = packedSample payload 1 := by
  intro word
  have hword : word.toNat = Bytes.toNat payload % 16777216 := by
    rw [BitVec.toNat_ofNat, Bytes.toNat_take]
    omega
  rw [toNat_and_mask, toNat_and_mask, BitVec.toNat_ushiftRight, Nat.shiftRight_eq_div_pow, hword]
  constructor <;> refine congrArg UInt16.ofNat ?_ <;> omega

/-- A cursor over whole pairs gives all their samples, and is at its end then. -/
theorem consumePairs_eq (hu : c.unit = 1) (h : c.remaining = pairs * 3) (before : List UInt16) :
    ∃ c', consumePairs 0xFFF#32 pairs before c =
        .ok (before.reverse ++ (List.range (2 * pairs)).map (packedSample c.rest), c') ∧
      c'.finish = .ok () := by
  induction pairs generalizing c before with
  | zero =>
    refine ⟨c, ?_, Cursor.finish_of_remaining (h.trans (Nat.zero_mul 3))⟩
    rw [consumePairs, Nat.mul_zero, List.range_zero, List.map_nil, List.append_nil]
  | succ pairs ih =>
    have hall : 1 * 3 ≤ c.remaining := by omega
    obtain ⟨c', htake, hu', hrest, hleft⟩ := Cursor.takeElements_bytes hu (by decide) hall
    obtain ⟨hlow, hhigh⟩ := packedSample_take c.rest
    obtain ⟨last, hlater, hfinish⟩ := ih hu' (by omega)
      (packedSample c.rest 1 :: packedSample c.rest 0 :: before)
    refine ⟨last, ?_, hfinish⟩
    -- the first pair, then those behind it
    have hrange : (List.range (2 * (pairs + 1))).map (packedSample c.rest) =
        packedSample c.rest 0 :: packedSample c.rest 1 ::
          (List.range (2 * pairs)).map (packedSample c'.rest) := by
      rw [Nat.mul_succ, List.range_succ_eq_map, List.range_succ_eq_map]
      simp only [List.map_cons, List.map_map, hrest, Nat.one_mul]
      refine congrArg (_ :: _ :: ·) (List.map_congr_left fun i _ => ?_)
      exact (packedSample_drop c.rest i).symm
    rw [consumePairs, Cursor.consume_eq, htake]
    dsimp only
    rw [Nat.one_mul, hlow, hhigh, hlater, hrange]
    simp only [List.reverse_cons, List.append_assoc, List.cons_append, List.nil_append]

/-- What a cursor over some samples gives: all of them, and it is at its end then. -/
def GivesAll (l : FrameLayout) (count : Nat) (c : Cursor) : Prop :=
  ∃ samples c', l.consumeSamples count c = .ok (samples, c') ∧ c'.finish = .ok () ∧
    samples.length = count ∧
    ∀ place < count, samples[place]?.map UInt16.toNat = some (l.written c.rest place)

theorem givesAll_words (hf : l.sampleFormat = .u16) (hu : c.unit = 1)
    (h : c.remaining = count * 2) : l.GivesAll count c := by
  obtain ⟨c', htake, -, -, hleft⟩ := Cursor.takeElements_bytes hu (by decide) h.ge
  have hrest : c.rest.take (count * 2) = c.rest := by
    rw [← h, Cursor.remaining, ← Nat.mul_one (c.bound - c.position), ← hu, ← c.length_rest,
      List.take_length]
  rw [hrest] at htake
  refine ⟨(cut 2 count c.rest).map fun e =>
    maskSample l.sampleBits (UInt16.ofNat (Bytes.toNat e)), c', ?_,
    Cursor.finish_of_remaining (by omega), by simp [cut], fun place hp => ?_⟩
  · simp only [consumeSamples, hf, Cursor.consumeInto_eq, htake, Except.map, Except.mapError,
      Bind.bind, Except.bind]
    rfl
  · rw [cut, List.map_map, List.getElem?_map, List.getElem?_range hp]
    simp only [Option.map_some, Function.comp, written, hf, toNat_maskSample, toNat_pair,
      Nat.mul_comm 2 place]

theorem givesAll_packed (hf : l.sampleFormat = .packed12) (hu : c.unit = 1)
    (h : c.remaining = (count + 1) / 2 * 3) : l.GivesAll count c := by
  obtain ⟨c', hpairs, hfinish⟩ := consumePairs_eq hu h []
  refine ⟨((List.range (2 * ((count + 1) / 2))).map (packedSample c.rest)).take count, c', ?_,
    hfinish, ?_, fun place hp => ?_⟩
  · simp only [consumeSamples, hf, mask_packed, Except.mapError, Bind.bind, Except.bind, hpairs]
    rfl
  · rw [List.length_take, List.length_map, List.length_range]
    omega
  · rw [List.getElem?_take_of_lt hp, List.getElem?_map, List.getElem?_range (by omega)]
    simp only [Option.map_some, toNat_packedSample, written, hf]

/-- A cursor over as many bytes as some samples take gives all of them. -/
theorem givesAll_of_remaining (hu : c.unit = 1) (h : c.remaining = l.bytesOf count) :
    l.GivesAll count c := by
  rw [bytesOf] at h
  cases hf : l.sampleFormat with
  | u16 =>
    rw [hf] at h
    exact givesAll_words hf hu (h.trans (Nat.mul_comm ..))
  | packed12 =>
    rw [hf] at h
    exact givesAll_packed hf hu (h.trans (Nat.mul_comm ..))

/-- A payload of the right size gives all samples of a frame. -/
theorem decodeSamples_of_length (hm : l.rxMask ≠ 0) (ha : l.Addressable)
    (h : payload.length = l.payloadSize) :
    ∃ samples cursor,
      l.consumeSamples l.frameSamples (Cursor.new (Buffer.ofBytes 1 payload)) =
        .ok (samples, cursor) ∧
      cursor.finish = .ok () ∧ l.decodeSamples payload = .ok samples.toArray ∧
      samples.length = l.frameSamples ∧
      ∀ place < l.frameSamples,
        samples[place]?.map UInt16.toNat = some (l.written payload place) := by
  obtain ⟨samples, cursor, hconsume, hfinish, hlength, hwritten⟩ :=
    givesAll_of_remaining rfl ((Cursor.remaining_new payload).trans h)
  rw [Cursor.rest_new] at hwritten
  refine ⟨samples, cursor, hconsume, hfinish, ?_, hlength, hwritten⟩
  have hrx : l.numRx ≠ 0 := fun h0 => hm ((numRx_eq_zero_iff l).1 h0)
  simp only [decodeSamples, if_neg hrx, expectedPayloadLen_eq, if_pos ha, h, ne_eq,
    not_true_eq_false, if_false, samplesPerFrame_eq, if_pos (And.intro ha.1 ha.2.1), hconsume,
    hfinish, Except.mapError, Bind.bind, Except.bind]
  rfl

/-- What decoding a payload gives. It is refused, in this order, where no antenna is enabled, where
its size or a product on the way to that cannot be addressed, and where it has another size.
Otherwise it gives as many samples as the geometry says, each with the number that the format
describes for its place, and the cursor that has read them is at the end of the payload. -/
theorem decodeSamples_reads (l : FrameLayout) (payload : Bytes) :
    if l.rxMask = 0 then l.decodeSamples payload = .error .noAntennas
    else if ¬ l.Addressable then l.decodeSamples payload = .error .tooLarge
    else if payload.length ≠ l.payloadSize then
      l.decodeSamples payload = .error (.payloadLength l.payloadSize payload.length)
    else ∃ samples cursor,
      l.consumeSamples l.frameSamples (Cursor.new (Buffer.ofBytes 1 payload)) =
        .ok (samples, cursor) ∧
      cursor.finish = .ok () ∧ l.decodeSamples payload = .ok samples.toArray ∧
      samples.length = l.frameSamples ∧
      ∀ place < l.frameSamples,
        samples[place]?.map UInt16.toNat = some (l.written payload place) := by
  by_cases hm : l.rxMask = 0
  · rw [if_pos hm, decodeSamples, if_pos ((numRx_eq_zero_iff l).2 hm)]
    rfl
  have hrx : l.numRx ≠ 0 := fun h0 => hm ((numRx_eq_zero_iff l).1 h0)
  rw [if_neg hm]
  by_cases ha : l.Addressable
  · rw [if_neg (not_not.2 ha)]
    by_cases hlen : payload.length = l.payloadSize
    · rw [if_neg (not_not.2 hlen)]
      exact decodeSamples_of_length hm ha hlen
    · rw [if_pos hlen, decodeSamples, if_neg hrx, expectedPayloadLen_eq, if_pos ha]
      exact if_pos hlen
  · rw [if_pos ha, decodeSamples, if_neg hrx, expectedPayloadLen_eq, if_neg ha]
    rfl

/-- Three packed samples of one antenna; the last half of the second pair is not read. -/
theorem decodeSamples_reads_packed :
    let l : FrameLayout := ⟨1, 1, 3, 12, .packed12⟩
    let payload : Bytes := [0xBC, 0x3A, 0x12, 0x56, 0xF4, 0xFF]
    ∃ samples : List UInt16, l.decodeSamples payload = .ok samples.toArray ∧
      samples.map UInt16.toNat = [0xABC, 0x123, 0x456] := by
  intro l payload
  have h := decodeSamples_reads l payload
  rw [if_neg (by decide), if_neg (by decide +kernel), if_neg (by decide +kernel)] at h
  obtain ⟨samples, -, -, -, hdecode, hlength, hwritten⟩ := h
  have hcount : l.frameSamples = 3 := by decide +kernel
  rw [hcount] at hlength hwritten
  refine ⟨samples, hdecode, ?_⟩
  match samples, hlength with
  | [first, second, third], _ =>
    have hfirst := Option.some.inj (hwritten 0 (by decide))
    have hsecond := Option.some.inj (hwritten 1 (by decide))
    have hthird := Option.some.inj (hwritten 2 (by decide))
    rw [List.map_cons, List.map_cons, List.map_cons, hfirst, hsecond, hthird]
    decide +kernel

end FrameLayout

end RadarHost
