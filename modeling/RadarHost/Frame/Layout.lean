import RadarHost.Buffer.Cursor
import RadarHost.Matrix.Transpose
import RadarHost.Word.Mask

/-!
# The shape of a frame

A layout says which antennas take part in a frame, how many samples each of them takes and how the
samples are written. From that follow the counts of samples and bytes, as far as they can be
addressed.
-/

namespace RadarHost

/-- How samples are written in a payload. -/
inductive SampleFormat
  /-- Two bytes each, least significant first. -/
  | u16
  /-- Two samples of twelve bits in three bytes, the low sample first. -/
  | packed12
  deriving DecidableEq, Repr

/-- The shape of a frame. -/
structure FrameLayout where
  /-- Which receive antennas are enabled. -/
  rxMask : UInt32
  /-- Chirps of a frame. -/
  numChirps : Nat
  /-- Samples of a chirp and antenna. -/
  numSamplesPerChirp : Nat
  /-- Bits of a sample; those above are ignored. -/
  sampleBits : Nat
  sampleFormat : SampleFormat
  deriving DecidableEq, Repr

/-- Why a frame could not be decoded. -/
inductive LayoutError
  | payloadLength (expected actual : Nat)
  | noAntennas
  /-- The layout describes more than can be addressed. -/
  | tooLarge
  | cursor (cause : CursorError)
  | shape (cause : ShapeError)
  | range (cause : RangeError)
  deriving DecidableEq, Repr

def LayoutError.message : LayoutError → String
  | payloadLength expected actual =>
    s!"Payload length mismatch: expected {expected} bytes, got {actual}"
  | noAntennas => "Layout has an empty rx mask"
  | tooLarge => "Layout describes a frame too large to address"
  | cursor cause => s!"Cursor error: {cause.message}"
  | shape cause => s!"Shape error: {cause.message}"
  | range cause => s!"Range error: {cause.message}"

namespace FrameLayout

def default : FrameLayout where
  rxMask := 7
  numChirps := 32
  numSamplesPerChirp := 64
  sampleBits := 12
  sampleFormat := .u16

/-- How many receive antennas are enabled. -/
def numRx (l : FrameLayout) : Nat := Word.countOnes l.rxMask.toBitVec

/-- The enabled receive antennas, least first. -/
def antennas (l : FrameLayout) : List Nat := (List.range 32).filter l.rxMask.toBitVec.getLsbD

/-- A count that can be addressed. -/
def addressable (n : Nat) : Except LayoutError Nat :=
  if n ≤ largestSize then .ok n else .error .tooLarge

/-- Samples of one antenna in a frame. -/
def samplesPerAntenna (l : FrameLayout) : Except LayoutError Nat :=
  addressable (l.numChirps * l.numSamplesPerChirp)

/-- Samples of a frame. -/
def samplesPerFrame (l : FrameLayout) : Except LayoutError Nat := do
  addressable ((← l.samplesPerAntenna) * l.numRx)

/-- Bytes of a frame's payload. -/
def expectedPayloadLen (l : FrameLayout) : Except LayoutError Nat := do
  let samples ← l.samplesPerFrame
  match l.sampleFormat with
  | .u16 => addressable (samples * 2)
  | .packed12 => addressable ((samples + 1) / 2 * 3)

end FrameLayout

end RadarHost
