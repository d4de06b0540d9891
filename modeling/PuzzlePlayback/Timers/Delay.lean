import PuzzlePlayback.Puzzle

/-!
# Delays

How long playback waits between two actions, and between the last action and the announcement of
the outcome. All delays are in milliseconds.
-/

namespace PuzzlePlayback

/-- The fastest setting of the speed slider. -/
def topSpeed : UInt8 := 100

/-- The shortest pause between two actions. -/
def shortestPause : Nat := 5

/-- What each unit below the fastest setting adds to the pause. -/
def pausePerUnit : Nat := 10

/-- A step of an equation stays long enough to be read. -/
def equationPause : Nat := 2500

/-- A scan stays until its sweep is over. -/
def scanPause : Nat := 500

/-- The usual time between the end of a run and its announcement. -/
def usualAnnouncementDelay : Nat := 500

def equationAnnouncementDelay : Nat := 3000

/-- The pause after an action, before the next one. -/
def pauseAfter (speed : UInt8) (mode : Mode) (latest : Option Action) : Nat :=
  let slider := max ((topSpeed.toNat - min speed.toNat topSpeed.toNat) * pausePerUnit) shortestPause
  let paced := if mode = .equation then max slider equationPause else slider
  if latest.any Action.isScan then max paced scanPause else paced

/-- The time between a win or a verdict and its announcement. -/
def announcementDelay (mode : Mode) : Nat :=
  if mode = .equation then equationAnnouncementDelay else usualAnnouncementDelay

end PuzzlePlayback
