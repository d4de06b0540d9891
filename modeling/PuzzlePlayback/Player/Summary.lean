import PuzzlePlayback.Player.Basic
import PuzzlePlayback.Text.Quoted

/-!
# A one-line summary of a player

For diagnosis: the mode, the puzzle, the position and the pending timer on one line.
-/

namespace PuzzlePlayback

/-- A name with a capital first letter. -/
def capitalized (name : String) : String :=
  match name.toLower.toList with
  | [] => ""
  | c :: cs => String.ofList (c.toUpper :: cs)

def Ending.summary : Ending → String
  | .win => "Win"
  | .lose => "Lose"
  | .verdict => "Verdict"

def Duty.summary : Duty → String
  | .advance => "Advance"
  | .announce ending => "Settle(" ++ ending.summary ++ ")"

def Alarm.summary (alarm : Alarm) : String :=
  "Pending \x7b timer: TimerId(" ++ toString alarm.timer ++ "), wakeup: " ++
    alarm.duty.summary ++ " \x7d"

/-- The whole player on one line. -/
def Player.summary {σ : Type} (p : Player σ) : String :=
  let alarm := match p.alarm with
    | none => "None"
    | some alarm => "Some(" ++ alarm.summary ++ ")"
  "SimulationEngine \x7b mode: " ++ capitalized p.stage.rules.mode.name ++
    ", level: " ++ Text.quoted p.stage.puzzle.id ++
    ", status: " ++ capitalized p.status.name ++
    ", step: " ++ toString p.step ++
    ", total_steps: " ++ toString p.programSize ++
    ", pending: " ++ alarm ++ " \x7d"

end PuzzlePlayback
