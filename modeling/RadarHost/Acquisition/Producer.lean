import RadarHost.Acquisition.Config
import RadarHost.Link.Session

/-!
# Acquiring frames

A producer owns the session while the board streams. It reads frames and offers them to the frame
queue, from which consumers take them on threads of their own. Damaged frames are dropped and
counted; a line that fails ends the acquisition.

`start` makes the session stream, `produce` is the thread of the producer, and `finish` is what the
controlling thread does when the producer has ended, be it that it stops the acquisition (`stop`) or
lets go of it (`drop`).
-/

namespace RadarHost

namespace Acquisition

/-- Makes a session stream into the queue; gives the session for the producer. A session that does
not stream is given up, and the queue is as it was. -/
def start (budget : Nat) (config : AcquisitionConfig) (session : Session) :
    Dialogue (Except LinkError Session) := do
  let session := session.setMaxFramePayload config.maxFramePayload
  match ← Dialogue.protect session.discard (session.startAcquisition budget) with
  | (.error e, session) =>
    session.discard
    return .error e
  | (.ok (), session) =>
    Dialogue.perform (.resizeQueue config.queueCapacity)
    Dialogue.perform .startQueue
    return .ok session

/-- Offers a frame to the queue and counts what became of it. -/
def handOver (frame : Frame) : Dialogue Unit := do
  if ← Dialogue.perform (.offer frame) then
    Dialogue.perform (.tally .received)
  else
    Dialogue.perform (.tally .rejected)
    Dialogue.perform (.report .frameRejected)

/-- One turn of the producer: reads a frame, unless it has been asked to stop. -/
def turn (budget : Nat) (readTimeout : Duration) (session : Session) :
    Dialogue (Session ⊕ Session) := do
  if ← Dialogue.perform .stopRequested then return .inr session
  match ← Dialogue.protect session.discard (session.readFrame budget readTimeout) with
  | (.ok (some frame), session) =>
    handOver frame
    return .inl session
  | (.ok none, session) => return .inl session
  | (.error (.packet e), session) =>
    Dialogue.perform (.tally .corrupt)
    Dialogue.perform (.report (.frameCorrupt e))
    return .inl session
  | (.error (.transport e), session) =>
    Dialogue.perform (.report (.transportFailed session.identifier e))
    let session ← session.close
    Dialogue.perform .stopQueue
    return .inr session

/-- The producer: reads frames until it is asked to stop or the line fails. -/
def produce (budget : Nat) (readTimeout : Duration) (session : Session) : Dialogue Session :=
  Dialogue.loop (turn budget readTimeout) budget session

/-- Tells the board to stop, if its line has not failed. -/
def stopBoard (budget : Nat) (session : Session) : Dialogue Session := do
  if session.isOpen then
    match ← session.stopAcquisition budget with
    | (.error e, session) =>
      Dialogue.perform (.report (.stopUnconfirmed e))
      return session
    | (.ok (), session) => return session
  else return session

/-- Ends an acquisition whose producer has ended: tells the board to stop, releases all consumers
and gives the session back, unless the producer broke off. -/
def finish (budget : Nat) (ending : Dialogue.Ending Session) : Dialogue (Option Session) := do
  let session ←
    match ending with
    | .ok session => do
      let session ← Dialogue.protect session.discard (stopBoard budget session)
      pure (some session)
    | .error _ => do
      Dialogue.perform (.report .producerCrashed)
      pure none
  Dialogue.perform .stopQueue
  let stats ← Dialogue.perform .stats
  Dialogue.perform (.report (.acquisitionFinished stats))
  return session

/-- Shuts an acquisition down, of which the ending of its producer is left, or nothing if it has
been shut down before; gives what is left of it then. -/
def shutDown (budget : Nat) :
    Option (Dialogue.Ending Session) →
      Dialogue (Option Session × Option (Dialogue.Ending Session))
  | none => return (none, none)
  | some ending => return (← finish budget ending, none)

/-- Lets go of an acquisition, and of its session. -/
def drop (budget : Nat) (left : Option (Dialogue.Ending Session)) : Dialogue Unit := do
  let (session, _) ← shutDown budget left
  Session.closeAny session

/-- Stops an acquisition, of which nothing is left to let go of then, and gives its session back. -/
def stop (budget : Nat) (left : Option (Dialogue.Ending Session)) : Dialogue (Option Session) := do
  let (session, left) ← shutDown budget left
  drop budget left
  return session

end Acquisition

end RadarHost
