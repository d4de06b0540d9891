import PuzzlePlayback.Value

/-!
# Actions

A compiled block program is a flat list of actions. An action names what to do and, for
highlighting only, the block it came from. Every mode obeys its own commands and plays the
rest as pauses.
-/

namespace PuzzlePlayback

/-- The position of the turtle's pen. -/
inductive Pen
  | up
  | down
deriving DecidableEq

/-- The arithmetic done to both sides of an equation. -/
inductive Operator
  | add
  | subtract
  | multiply
  | divide
deriving DecidableEq

/-- The sign of an operator. -/
def Operator.symbol : Operator → String
  | .add => "+"
  | .subtract => "-"
  | .multiply => "*"
  | .divide => "/"

/-- What an action does. -/
inductive Command
  /-- One cell ahead in a maze; `dist` units along the heading for a turtle. -/
  | move (dist : Option Float)
  | turnLeft
  | turnRight
  /-- Turn the turtle by degrees. -/
  | turn (angle : Float)
  | pen (state : Pen)
  | color (color : String)
  | set (var : String) (val : Value)
  | print (msg : String)
  | bothSides (operator : Operator) (value : String)
  /-- Shows the sensor; takes a step and leaves the world as it is. -/
  | scan
  /-- A command that this library does not know; does nothing. -/
  | unknown

/-- One step of a compiled program. -/
structure Action where
  /-- The block that the action came from. -/
  id : Option String := none
  command : Command

namespace Action

def isScan (action : Action) : Bool :=
  match action.command with
  | .scan => true
  | _ => false

end Action

end PuzzlePlayback
