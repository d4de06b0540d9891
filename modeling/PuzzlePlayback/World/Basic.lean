import PuzzlePlayback.Puzzle
import PuzzlePlayback.Relation

/-!
# World states

What a puzzle looks like between two actions, for each mode. A state is a plain value that is
determined by the puzzle and the actions done so far.
-/

namespace PuzzlePlayback

/-- A robot on a grid of cells. Coordinates and heading are words that wrap around; the heading
counts quarter turns to the right and is never reduced. -/
structure Robot where
  x : Int32
  y : Int32
  dir : Int32
deriving DecidableEq

/-- A stroke of the turtle's pen. -/
structure Stroke where
  x1 : Float
  y1 : Float
  x2 : Float
  y2 : Float
  color : String

/-- A turtle and its drawing. The heading is in degrees and is never reduced. -/
structure Turtle where
  x : Float
  y : Float
  dir : Float
  penDown : Bool
  color : String
  strokes : List Stroke

/-- The variables and the console. -/
structure Memory where
  bindings : SortedMap String Value
  console : List String

/-- The sides of an equation before an operation. -/
structure EquationLine where
  lhs : String
  sign : Relation
  rhs : String
deriving DecidableEq

/-- The latest operation on both sides. -/
structure Operation where
  operator : Operator
  value : String
  /-- Was it carried out, or refused? -/
  applied : Bool
deriving DecidableEq

/-- The check of a solution in the authored equation. -/
structure Check where
  value : String
  lhs : String
  rhs : String
  agree : Bool
deriving DecidableEq

/-- An equation being solved; its sides are canonical text. -/
structure Equation where
  lhs : String
  rhs : String
  sign : Relation
  implicit : Bool
  history : List EquationLine
  latest : Option Operation
  check : Option Check
deriving DecidableEq

/-- The state of whichever mode is played. -/
inductive World
  | maze (robot : Robot)
  | turtle (turtle : Turtle)
  | math (memory : Memory)
  | equation (equation : Equation)

namespace World

def mode : World → Mode
  | .maze _ => .maze
  | .turtle _ => .turtle
  | .math _ => .math
  | .equation _ => .equation

/-- The strokes drawn so far; there are none outside the turtle mode. -/
def strokes : World → List Stroke
  | .turtle t => t.strokes
  | _ => []

end World

end PuzzlePlayback
