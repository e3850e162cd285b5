import RadarHost.Link.Dialogue

/-!
# Scripted lines

A port whose line plays back a script. A read takes the first step, as far as it can; a write can
let the script go on. Gates hold the script until a permit is given.
-/

namespace RadarHost

/-- A step of a script. -/
inductive ScriptStep
  /-- Bytes to be read. -/
  | data (bytes : Bytes)
  /-- A read that gives nothing at once. -/
  | empty
  /-- A read that fails. -/
  | io (reason : String)
  /-- A read that finds the line closed. -/
  | closed
  /-- A read that crashes its thread. -/
  | crash
  /-- Nothing until there is a permit, which is used up. -/
  | gate
  /-- Nothing until the host writes. -/
  | awaitWrite
  /-- Nothing until the host writes, and that write fails. -/
  | writeError (reason : String)
  deriving DecidableEq, Repr

/-- A port with a script. -/
structure ScriptPort where
  identifier : String
  /-- The only rate at which the port is found; none for any. -/
  baudRate : Option UInt32
  /-- Why the port cannot be opened. -/
  openError : Option String
  steps : List ScriptStep
  deriving Repr

namespace Script

/-- What a read of a script gives, with the permits and the steps that are left. -/
structure Reading where
  /-- The answer; none when the script has nothing and the read waits out its time. -/
  answer : Option ReadAnswer
  permits : Nat
  steps : List ScriptStep

/-- Reads at most `max` bytes. -/
def read (max permits : Nat) : List ScriptStep → Reading
  | .data bytes :: rest =>
    let left := bytes.drop max
    ⟨some (.bytes (bytes.take max)), permits, if left.isEmpty then rest else .data left :: rest⟩
  | .empty :: rest => ⟨some (.bytes []), permits, rest⟩
  | .io reason :: rest => ⟨some (.failed (.io reason)), permits, rest⟩
  | .closed :: rest => ⟨some (.failed .closed), permits, rest⟩
  | .crash :: rest => ⟨some .crashed, permits, rest⟩
  | .gate :: rest =>
    if permits = 0 then ⟨none, permits, .gate :: rest⟩ else read max (permits - 1) rest
  | steps => ⟨none, permits, steps⟩

/-- What a write does to a script. -/
def write : List ScriptStep → Except TransportError Unit × List ScriptStep
  | .writeError reason :: rest => (.error (.io reason), rest)
  | .awaitWrite :: rest => (.ok (), rest)
  | steps => (.ok (), steps)

end Script

end RadarHost
