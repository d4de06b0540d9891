import PuzzlePlayback.Decimal.Binary

/-!
# Status and outcome of a run

A run that ends is won, lost or failed. A win is rated by the number of blocks of the program:
three stars up to par, two up to one and a half times par, else one.
-/

namespace PuzzlePlayback

/-- Where playback stands. -/
inductive Status
  | idle
  | running
  | paused
  | won
  /-- The run hit an obstacle. -/
  | lost
  /-- The actions ran out before the puzzle was solved. -/
  | failed
deriving DecidableEq

namespace Status

/-- Is the run over? -/
def isOver : Status → Bool
  | .won | .lost | .failed => true
  | .idle | .running | .paused => false

def name : Status → String
  | .idle => "IDLE"
  | .running => "RUNNING"
  | .paused => "PAUSED"
  | .won => "WON"
  | .lost => "LOST"
  | .failed => "FAILED"

def all : List Status := [.idle, .running, .paused, .won, .lost, .failed]

end Status

/-- How many times par still earns two stars. -/
def twoStarFactor : Float := 1.5

/-- The most blocks that earn two stars, computed with doubles. -/
def twoStarBlocks (par : UInt32) : UInt32 :=
  (Decimal.Binary.ofFloat (par.toFloat * twoStarFactor)).ceilWord

/-- The stars of a solved puzzle. -/
def starsFor (blocks par : UInt32) : UInt8 :=
  if blocks ≤ par then 3 else if blocks ≤ twoStarBlocks par then 2 else 1

/-- The result of a run. -/
structure Outcome where
  status : Status
  stars : UInt8
  blockCount : UInt32
  /-- The most blocks that earn every star. -/
  par : UInt32
  /-- The completion code of a win. -/
  code : Option String
deriving DecidableEq

namespace Outcome

/-- A run that is not over. -/
def unfinished (blockCount par : UInt32) : Outcome := ⟨.running, 0, blockCount, par, none⟩

/-- The same counts with another status, without stars and code. -/
def endedAs (outcome : Outcome) (status : Status) : Outcome :=
  { outcome with status, stars := 0, code := none }

/-- The same counts as a win. -/
def won (outcome : Outcome) (code : String) : Outcome :=
  { outcome with
    status := .won
    stars := starsFor outcome.blockCount outcome.par
    code := some code }

end Outcome

end PuzzlePlayback
