import PuzzlePlayback.World.Ink
import PuzzlePlayback.World.Rules

/-!
# Turtle graphics

A turtle draws while it walks with its pen down. The drawing is judged by the ink of the
reference drawing that it covers.
-/

namespace PuzzlePlayback.Drawing

/-- The width of the pen. -/
def strokeWidth : Float32 := 4.0

/-- The share of the reference ink that a drawing has to cover. -/
def passingCoverage : Float := 0.9

/-- The colour of the pen at the start. -/
def startColor : String := "#000000"

/-- Radians in a degree. -/
def radiansPerDegree : Float := 3.141592653589793 / 180.0

/-- The offset of a walk over a distance at a heading in degrees. -/
def offset (dist degrees : Float) : Float × Float :=
  let theta := degrees * radiansPerDegree
  (dist * theta.cos, dist * theta.sin)

/-- The turtle at the start of a puzzle: where the puzzle says, or in the middle of the paper
facing right. -/
def start (puzzle : Puzzle) : Turtle :=
  let start := match puzzle.start with
    | some start => start
    | none => ⟨puzzle.paper.width.toFloat / 2.0, puzzle.paper.height.toFloat / 2.0, 0.0⟩
  { x := start.x
    y := start.y
    dir := start.dir
    penDown := true
    color := startColor
    strokes := [] }

/-- Walk a distance ahead, drawing if the pen is down. -/
def walk (turtle : Turtle) (dist : Float) : Turtle :=
  let (dx, dy) := offset dist turtle.dir
  let (x, y) := (turtle.x + dx, turtle.y + dy)
  { turtle with
    x, y
    strokes :=
      if turtle.penDown then turtle.strokes ++ [⟨turtle.x, turtle.y, x, y, turtle.color⟩]
      else turtle.strokes }

/-- Do an action. -/
def act (turtle : Turtle) (action : Action) : Turtle :=
  match action.command with
  | .move (some dist) => walk turtle dist
  | .turn angle => { turtle with dir := turtle.dir + angle }
  | .turnLeft => { turtle with dir := turtle.dir - 90.0 }
  | .turnRight => { turtle with dir := turtle.dir + 90.0 }
  | .pen state => { turtle with penDown := state == .down }
  | .color color => { turtle with color }
  | _ => turtle

/-- The turtle of a world, or the one at the start of the puzzle. -/
def turtleOf (prior : Option World) (puzzle : Puzzle) : Except Fault Turtle :=
  match prior with
  | some (.turtle turtle) => .ok turtle
  | some other => .error (mismatch .turtle other)
  | none => .ok (start puzzle)

def step (prior : Option World) (action : Option Action) (puzzle : Puzzle) :
    Except Fault Transition := do
  let turtle ← turtleOf prior puzzle
  match action with
  | none => return .running (.turtle turtle)
  | some action => return .running (.turtle (act turtle action))

/-- The ink of a drawing on the paper of a puzzle. -/
def inkOf (strokes : List Stroke) (puzzle : Puzzle) : Bitmap :=
  .ofStrokes strokes puzzle.paper.width.toNat puzzle.paper.height.toNat strokeWidth

/-- The drawing covers enough of the reference drawing; without one no drawing does. -/
def solved (state : World) (puzzle : Puzzle) (reference : Option Reference) :
    Except Fault Bool :=
  match state with
  | .turtle turtle =>
    match reference with
    | none => .ok false
    | some reference =>
      .ok (passingCoverage ≤
        Bitmap.coverage (inkOf reference.strokes puzzle) (inkOf turtle.strokes puzzle))
  | other => .error (mismatch .turtle other)

def rules : Rules := ⟨.turtle, step, solved⟩

end PuzzlePlayback.Drawing
