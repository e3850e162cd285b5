import RadarHost.Packet.BoardInfo
import RadarHost.Time

/-!
# Known boards

The boards that the host knows and the rates at which it looks for them.
-/

namespace RadarHost

/-- How discovery looks for boards. -/
structure DiscoveryConfig where
  /-- Rate of the first attempt. -/
  primaryBaudRate : UInt32
  /-- Rate of the second attempt. -/
  fallbackBaudRate : UInt32
  /-- How long to wait for a complete reply to the probe. -/
  probeTimeout : Duration
  /-- Boards that discovery accepts. -/
  knownBoards : List BoardDescriptor
  deriving Repr

namespace DiscoveryConfig

def default : DiscoveryConfig where
  primaryBaudRate := 921600
  fallbackBaudRate := 1000000
  probeTimeout := Duration.ofMillis 200
  knownBoards :=
    [⟨0x058B, 0x0251, "Radar Baseboard MCU7"⟩,
      ⟨0x058B, 0x0253, "Radar Baseboard V9"⟩,
      ⟨0x058B, 0x0257, "Radar Baseboard X"⟩]

/-- The rates in the order in which they are tried. -/
def baudRates (c : DiscoveryConfig) : List UInt32 := [c.primaryBaudRate, c.fallbackBaudRate]

/-- The first known board of an identity. -/
def findBoard (c : DiscoveryConfig) (info : BoardInfo) : Option BoardDescriptor :=
  c.knownBoards.find? (·.describes info)

end DiscoveryConfig

end RadarHost
