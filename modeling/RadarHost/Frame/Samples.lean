import RadarHost.Frame.Basic
import RadarHost.Frame.Layout

/-!
# From frames to samples

A board streams samples as it takes them: for every chirp, for every sample, one value for each
enabled receive antenna. `FrameLayout.decodeSamples` reads them off a payload in that order, and
`FrameLayout.deinterleave` reorders them into one block for each antenna, which is a transposition.
-/

namespace RadarHost

namespace FrameLayout

/-- The lowest bits of a sample. -/
def maskSample (bits : Nat) (sample : UInt16) : UInt16 :=
  UInt16.ofBitVec (Word.keepLow sample.toBitVec bits)

/-- Consumes pairs of packed samples, after those consumed before, last first. -/
def consumePairs (mask : BitVec 32) : (pairs : Nat) → (before : List UInt16) → Cursor →
    Except CursorError (List UInt16 × Cursor)
  | 0, before, c => .ok (before.reverse, c)
  | pairs + 1, before, c =>
    match c.consume 3 with
    | .error e => .error e
    | .ok (bytes, c) =>
      let word := BitVec.ofNat 32 (Bytes.toNat bytes)
      let low := UInt16.ofNat (word &&& mask).toNat
      let high := UInt16.ofNat ((word >>> 12) &&& mask).toNat
      consumePairs mask pairs (high :: low :: before) c

/-- Consumes `count` samples. -/
def consumeSamples (l : FrameLayout) (count : Nat) (c : Cursor) :
    Except LayoutError (List UInt16 × Cursor) := do
  match l.sampleFormat with
  | .u16 =>
    let (elements, c) ← (c.consumeInto 2 count).mapError .cursor
    return (elements.map fun e => maskSample l.sampleBits (UInt16.ofNat (Bytes.toNat e)), c)
  | .packed12 =>
    let mask ← (Word.mask 32 12 0).mapError .range
    let (samples, c) ← (consumePairs mask ((count + 1) / 2) [] c).mapError .cursor
    return (samples.take count, c)

/-- The samples of a payload as they were taken. -/
def decodeSamples (l : FrameLayout) (payload : Bytes) : Except LayoutError (Array UInt16) := do
  if l.numRx = 0 then throw .noAntennas
  let expected ← l.expectedPayloadLen
  if payload.length ≠ expected then throw (.payloadLength expected payload.length)
  let count ← l.samplesPerFrame
  let (samples, c) ← l.consumeSamples count (Cursor.new (Buffer.ofBytes 1 payload))
  c.finish.mapError .cursor
  return samples.toArray

/-- Reorders samples from `[chirp][sample][antenna]` to `[antenna][chirp][sample]`. -/
def deinterleave (l : FrameLayout) (samples : Array UInt16) :
    Except LayoutError (Array UInt16) := do
  let rows ← l.samplesPerAntenna
  (Transpose.inPlace samples rows l.numRx).mapError .shape

/-- The samples of a frame, in blocks of the antennas. -/
def decodeFrame (l : FrameLayout) (frame : Frame) : Except LayoutError (Array UInt16) := do
  l.deinterleave (← l.decodeSamples frame.payload)

/-- The block of one antenna in samples that are in blocks of the antennas. -/
def antennaBlock (l : FrameLayout) (samples : Array UInt16) (rx : Nat) :
    Option (Array UInt16) := do
  let block ← l.samplesPerAntenna.toOption
  let stop := rx * block + block
  if stop ≤ largestSize ∧ stop ≤ samples.size then some (samples.extract (rx * block) stop)
  else none

end FrameLayout

end RadarHost
