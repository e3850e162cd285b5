import RadarHost.Discovery.Config
import RadarHost.Link.Session

/-!
# Finding a board

An attempt opens a fresh line, sends the probe and waits for an intact reply that names a known
board. A missing or damaged reply says that the rate may be wrong, so that the candidate is tried
again at the other rate; an intact reply of an unknown board ends the candidate. No line outlives a
failed attempt.

Candidates are probed in order until one is found (`discover`).
-/

namespace RadarHost

namespace Discovery

/-- Asks the board at the end of a line who it is. -/
def handshake (budget : Nat) (config : DiscoveryConfig) (line : Nat) (reader : PacketReader) :
    Dialogue (Except AttemptError (BoardInfo × BoardDescriptor) × PacketReader) := do
  match ← reader.exchange budget line .getBoardInfo [] config.probeTimeout with
  | (.error e, reader) => return (.error (.ofLink e), reader)
  | (.ok payload, reader) =>
    match BoardInfo.ofBytes payload with
    | .error e => return (.error (.ofPacket e), reader)
    | .ok info =>
      match config.findBoard info with
      | none => return (.error (.unknownBoard info.vid info.pid), reader)
      | some descriptor => return (.ok (info, descriptor), reader)

/-- One handshake at one rate. -/
def attempt (budget : Nat) (config : DiscoveryConfig) (identifier : String) (baudRate : UInt32) :
    Dialogue (Except AttemptError Session) := do
  Dialogue.perform (.report (.probing identifier baudRate))
  match ← Dialogue.perform (.openLine identifier baudRate) with
  | .error e => return .error (.transport e)
  | .ok line =>
    let reader := PacketReader.empty Packet.maxFramePayload
    match ← Dialogue.protect (Dialogue.perform (.close line))
      (handshake budget config line reader) with
    | (.error e, _) =>
      Dialogue.perform (.close line)
      return .error e
    | (.ok (info, descriptor), reader) =>
      Dialogue.perform (.report (.boardFound descriptor.name info.firmware identifier baudRate))
      return .ok
        { line := some line, identifier, baudRate, info, descriptor, reader
          commandTimeout := config.probeTimeout, lastSequence := none }

/-- Attempts at the given rates in order, until one succeeds or says that no other rate will. The
failures so far come first in the failure of all. -/
def probeAt (budget : Nat) (config : DiscoveryConfig) (identifier : String) :
    List UInt32 → List AttemptFailure → Dialogue (Except NotFound Session)
  | [], failures => return .error ⟨failures⟩
  | baudRate :: rates, failures => do
    match ← attempt budget config identifier baudRate with
    | .ok session => return .ok session
    | .error cause =>
      Dialogue.perform (.report (.attemptFailed identifier baudRate cause))
      let failures := failures ++ [⟨identifier, baudRate, cause⟩]
      if cause.isRetryable then probeAt budget config identifier rates failures
      else return .error ⟨failures⟩

/-- Probes one candidate at the primary and then at the fallback rate. -/
def probe (budget : Nat) (config : DiscoveryConfig) (identifier : String) :
    Dialogue (Except NotFound Session) :=
  probeAt budget config identifier config.baudRates []

/-- Probes candidates in order until one is found; gives all failures if none is. -/
def probeAll (budget : Nat) (config : DiscoveryConfig) :
    List String → List AttemptFailure → Dialogue (Except NotFound Session)
  | [], failures => return .error ⟨failures⟩
  | candidate :: rest, failures => do
    match ← probe budget config candidate with
    | .ok session => return .ok session
    | .error e => probeAll budget config rest (failures ++ e.attempts)

/-- The first board found on the candidates in order. -/
def discover (budget : Nat) (config : DiscoveryConfig) (candidates : List String) :
    Dialogue (Except NotFound Session) := do
  match ← probeAll budget config candidates [] with
  | .ok session => return .ok session
  | .error e =>
    Dialogue.perform (.report (.noBoardFound candidates.length))
    return .error e

end Discovery

end RadarHost
