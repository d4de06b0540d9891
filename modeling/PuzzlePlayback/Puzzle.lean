import PuzzlePlayback.Program.Basic
import PuzzlePlayback.SortedMap

/-!
# Puzzles

A puzzle is authored data: its mode, and a section for each mode of which only the mode's own is
read. Playing a puzzle never changes it.
-/

namespace PuzzlePlayback

/-- The four kinds of puzzle. -/
inductive Mode
  | maze
  | turtle
  | math
  | equation
deriving DecidableEq

namespace Mode

/-- All modes, in the order in which they are listed. -/
def all : List Mode := [.maze, .turtle, .math, .equation]

def name : Mode → String
  | .maze => "maze"
  | .turtle => "turtle"
  | .math => "math"
  | .equation => "equation"

end Mode

/-- An authored start: cell and quarter turns in a maze, point and degrees for a turtle. -/
structure StartPose where
  x : Float
  y : Float
  dir : Float

/-- The size of the turtle's paper in pixels. -/
structure PaperSize where
  width : UInt32
  height : UInt32
deriving DecidableEq

/-- The paper of a puzzle that does not say. -/
def PaperSize.default : PaperSize := ⟨400, 400⟩

/-- An authored equation. -/
structure AuthoredEquation where
  lhs : String
  rhs : String
  /-- The name of the unknown. -/
  unknown : String
  /-- The relation sign, as written. -/
  sign : String
  /-- Are products written without a sign? -/
  implicit : Bool
deriving DecidableEq

/-- What a variable is compared with at the end. -/
inductive Expectation
  | value (value : Value)
  /-- What another variable holds then. -/
  | sameAs (name : String)

/-- A condition of victory in the memory mode. -/
structure Target where
  var : String
  expect : Expectation

/-- The par of a puzzle that does not say. -/
def usualPar : UInt32 := 5

/-- A puzzle. -/
structure Puzzle where
  id : String := ""
  mode : Mode
  /-- The cells of a maze, rows from the top. -/
  grid : List (List UInt8) := []
  start : Option StartPose := none
  allowedBlocks : List String := []
  /-- The variables at the start. -/
  inputs : SortedMap String Value := .empty
  hiddenVars : List String := []
  lockedVars : List String := []
  targets : List Target := []
  givenPar : Option UInt32 := none
  equation : Option AuthoredEquation := none
  paperSize : Option PaperSize := none
  /-- The author's own solution. -/
  solution : List Action := []

namespace Puzzle

/-- The par of the puzzle: the most blocks that earn every star. -/
def par (puzzle : Puzzle) : UInt32 := puzzle.givenPar.getD usualPar

/-- The paper that is drawn on. -/
def paper (puzzle : Puzzle) : PaperSize := puzzle.paperSize.getD .default

/-- May the learner not write this variable? -/
def protects (puzzle : Puzzle) (var : String) : Bool :=
  puzzle.lockedVars.contains var || puzzle.hiddenVars.contains var

end Puzzle

end PuzzlePlayback
