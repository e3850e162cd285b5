import RadarHost.Bytes

/-!
# Frames

One complete unit of data that a board streams.
-/

namespace RadarHost

/-- A frame: its number, its flags and its bytes. The time at which it reached the host is left out;
it is only ever shown, as a latency. -/
structure Frame where
  sequence : UInt32
  flags : UInt8
  payload : Bytes
  deriving DecidableEq, Repr

namespace Frame

/-- Bytes of the payload. -/
def len (f : Frame) : Nat := f.payload.length

def isEmpty (f : Frame) : Bool := f.payload.isEmpty

end Frame

end RadarHost
