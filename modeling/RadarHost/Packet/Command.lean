/-!
# Commands

What the host may ask of a board, and the byte that stands for it on the line.
-/

namespace RadarHost

inductive Command
  /-- Report the board's identity; this is the probe of discovery. -/
  | getBoardInfo
  /-- Start streaming frame packets. -/
  | startAcquisition
  /-- Stop streaming frame packets. -/
  | stopAcquisition
  deriving DecidableEq, Repr

namespace Command

/-- The byte of a command. -/
def byte : Command → UInt8
  | getBoardInfo => 0x00
  | startAcquisition => 0x10
  | stopAcquisition => 0x11

/-- The command that a byte stands for. -/
def ofByte? (b : UInt8) : Option Command :=
  if b = 0x00 then some getBoardInfo
  else if b = 0x10 then some startAcquisition
  else if b = 0x11 then some stopAcquisition
  else none

/-- The name of a command in messages and records. -/
def name : Command → String
  | getBoardInfo => "GetBoardInfo"
  | startAcquisition => "StartAcquisition"
  | stopAcquisition => "StopAcquisition"

/-- All commands. -/
def all : List Command := [getBoardInfo, startAcquisition, stopAcquisition]

/-- The command of a name. -/
def ofName? (name : String) : Option Command := all.find? (·.name == name)

theorem ofByte?_eq_some_iff {b : UInt8} {c : Command} : ofByte? b = some c ↔ b = c.byte := by
  unfold ofByte?
  constructor
  · intro h
    split at h
    · cases h; assumption
    · split at h
      · cases h; assumption
      · split at h
        · cases h; assumption
        · cases h
  · rintro rfl
    cases c <;> rfl

end Command

end RadarHost
