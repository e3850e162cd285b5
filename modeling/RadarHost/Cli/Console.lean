import RadarHost.Bench.Basic
import RadarHost.Digits

/-!
# What the command line shows

Lines for the two output streams, gathered while a task runs on a bench. The reports of the bench
are shown as they come, between the lines of the task itself, if their level is high enough.

The names of ports come from the user. In the log, `logChar` keeps what they hold from steering the
terminal; the lines of the task show them as they are.
-/

namespace RadarHost.Cli

/-- What a run of the program leaves: its exit code and the lines of both output streams. -/
structure Transcript where
  exitCode : Nat
  stdout : List String
  stderr : List String
  deriving DecidableEq, Repr

/-- A character as the log shows it. Bell, backspace, form feed, escape and delete are written with
two digits, the controls from 128 to 159 with their number in braces; all others, and so tabs and
line ends too, stand for themselves. -/
def logChar (c : Char) : List Char :=
  let digits := (hexWordLower 2 c.toNat).toList
  if c ∈ ['\x07', '\x08', '\x0c', '\x1b', '\x7f'] then '\\' :: 'x' :: digits
  else if 0x80 ≤ c.toNat ∧ c.toNat ≤ 0x9F then '\\' :: 'u' :: '\x7b' :: digits ++ ['\x7d']
  else [c]

/-- A text as the log shows it. -/
def logText (text : String) : String := String.ofList (text.toList.flatMap logChar)

/-- A line of the log. -/
def logLine (level : Level) (target text : String) : String :=
  s!"{level.name} {target}: {logText text}"

/-- A bench, and what has been shown of the work on it. -/
structure Console where
  bench : Bench
  /-- Events below this level are not shown. -/
  level : Level
  /-- Lines shown, last first. -/
  shown : List String

namespace Console

/-- Shows a line of the log, if its level is high enough. -/
def log (c : Console) (level : Level) (target text : String) : Console :=
  if c.level.rank ≤ level.rank then
    { c with shown := logLine level target text :: c.shown }
  else c

/-- Shows the program's own line in the log. -/
def note (c : Console) (level : Level) (text : String) : Console :=
  c.log level "radarlink" text

/-- Shows a plain line. -/
def print (c : Console) (text : String) : Console := { c with shown := text :: c.shown }

/-- Shows what the bench has reported since the last time. -/
def catchUp (c : Console) : Console :=
  c.bench.log.foldr (fun event c => c.log event.level event.target event.message)
    { c with bench := { c.bench with log := [] } }

/-- Goes on with another bench, and shows what it has reported. -/
def withBench (c : Console) (bench : Bench) : Console := catchUp { c with bench }

/-- Carries a dialogue through. -/
def run {α : Type} (c : Console) (d : Dialogue α) : Dialogue.Ending α × Console :=
  let (ending, bench) := c.bench.run d
  (ending, c.withBench bench)

/-- The end of a run that did its task. -/
def succeed (c : Console) : Transcript := ⟨0, c.shown.reverse, []⟩

/-- The end of a run that failed, with the lines that say why. -/
def fail (c : Console) (why : List String) : Transcript := ⟨1, c.shown.reverse, why⟩

/-- The end of a run that failed for one reason. -/
def failed (c : Console) (why : String) : Transcript := c.fail [s!"Error: {why}"]

end Console

end RadarHost.Cli
