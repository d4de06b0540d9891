import PuzzlePlayback.Fault
import PuzzlePlayback.World.Basic

/-!
# Rules

The rules of a mode are a transition function on its world states and a test for victory, both
pure. Doing nothing in no world yields the initial state.
-/

namespace PuzzlePlayback

/-- What a single transition says about the run. -/
inductive Signal
  | running
  | win
  | lost
deriving DecidableEq

/-- The outcome of a transition. -/
structure Transition where
  state : World
  /-- What it says about the run. -/
  signal : Signal

/-- A transition after which the run goes on. -/
def Transition.running (state : World) : Transition := ⟨state, .running⟩

/-- What the author's solution of a puzzle ends in. -/
structure Reference where
  state : World
  /-- The number of actions of the solution. -/
  steps : Nat

/-- The strokes of the reference drawing. -/
def Reference.strokes (reference : Reference) : List Stroke := reference.state.strokes

/-- The rules of a mode. -/
structure Rules where
  mode : Mode
  /-- The transition of an action (`none` does nothing) from a state (`none` is the start of the
  puzzle). -/
  step : Option World → Option Action → Puzzle → Except Fault Transition
  /-- Is the puzzle solved in this state? -/
  solved : World → Puzzle → Option Reference → Except Fault Bool

/-- The state of a puzzle before the first action. -/
def Rules.startState (rules : Rules) (puzzle : Puzzle) : Except Fault World :=
  (rules.step none none puzzle).map (·.state)

/-- The fault of a mode that is given the state of another. -/
def mismatch (expected : Mode) (found : World) : Fault :=
  ⟨expected, .wrongWorld expected found.mode⟩

end PuzzlePlayback
