import RadarHost.Packet.Basic
import RadarHost.Time

/-!
# Settings of an acquisition
-/

namespace RadarHost

/-- How frames are acquired. -/
structure AcquisitionConfig where
  /-- Most frames the queue holds; zero for no bound. -/
  queueCapacity : Nat
  /-- How long one read of a frame waits. -/
  readTimeout : Duration
  /-- Longest payload accepted. -/
  maxFramePayload : Nat
  deriving Repr

def AcquisitionConfig.default : AcquisitionConfig where
  queueCapacity := 16
  readTimeout := Duration.ofMillis 50
  maxFramePayload := Packet.maxFramePayload

end RadarHost
