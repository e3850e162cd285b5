/-!
# Counts of an acquisition
-/

namespace RadarHost

/-- What became of the frames of an acquisition. -/
structure AcquisitionStats where
  /-- Frames that the queue accepted. -/
  framesReceived : Nat
  /-- Frames that the queue handed back because it was stopped. -/
  framesRejected : Nat
  /-- Frames dropped because they were damaged. -/
  framesCorrupt : Nat
  /-- Frames evicted from the queue to make room. -/
  framesEvicted : Nat
  deriving DecidableEq, Repr

def AcquisitionStats.zero : AcquisitionStats := ⟨0, 0, 0, 0⟩

/-- What may become of a frame that the producer has read. -/
inductive FrameFate
  | received
  | rejected
  | corrupt
  deriving DecidableEq, Repr

/-- One frame more of the given fate. -/
def AcquisitionStats.tally (s : AcquisitionStats) : FrameFate → AcquisitionStats
  | .received => { s with framesReceived := s.framesReceived + 1 }
  | .rejected => { s with framesRejected := s.framesRejected + 1 }
  | .corrupt => { s with framesCorrupt := s.framesCorrupt + 1 }

end RadarHost
