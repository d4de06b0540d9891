/-!
# Preferences

What the learner prefers, and the named positions of the speed slider.
-/

namespace PuzzlePlayback

/-- A named position of the speed slider. -/
inductive Pace
  | slow
  | normal
  | fast
  | instant
deriving DecidableEq

namespace Pace

def name : Pace → String
  | .slow => "Slow"
  | .normal => "Normal"
  | .fast => "Fast"
  | .instant => "Instant"

/-- Read a name or one of its synonyms, in any case. The names are ASCII, and no other character
has an ASCII letter of theirs as its lower case. -/
def ofName? (text : String) : Option Pace :=
  match text.toLower with
  | "slow" => some .slow
  | "normal" | "default" => some .normal
  | "fast" => some .fast
  | "instant" | "max" => some .instant
  | _ => none

/-- The position on the slider. -/
def speed : Pace → UInt8
  | .slow => 20
  | .normal => 50
  | .fast => 80
  | .instant => 100

end Pace

/-- The learner's preferences. -/
structure Preferences where
  /-- The speed slider, from 0 to 100. -/
  speed : UInt8
  /-- Is the reference drawing shown under the learner's? -/
  showReference : Bool
deriving DecidableEq

namespace Preferences

def default : Preferences := ⟨Pace.normal.speed, true⟩

/-- Move the slider to a named position. -/
def withPace (preferences : Preferences) (pace : Pace) : Preferences :=
  { preferences with speed := pace.speed }

def ofPace (pace : Pace) : Preferences := default.withPace pace

end Preferences

end PuzzlePlayback
