import PuzzlePlayback.World.Rules

/-!
# The maze

A robot walks over open cells to a goal cell. Walking into a wall or off the grid loses and
leaves the robot where it was; entering the goal wins.
-/

namespace PuzzlePlayback.Walk

/-- What the robot finds in a cell. -/
inductive Cell
  | free
  | goal
  /-- Blocked, or outside the grid. -/
  | wall
deriving DecidableEq

/-- The code of the cell where the robot starts. -/
def startCode : UInt8 := 2

/-- The meaning of a cell code: 1 is open, 2 the start, 3 the goal. -/
def Cell.ofCode (code : UInt8) : Cell :=
  if code = 1 ∨ code = startCode then .free else if code = 3 then .goal else .wall

/-- The cell at a coordinate. -/
def cellAt (grid : List (List UInt8)) (x y : Int32) : Cell :=
  if x < 0 ∨ y < 0 then .wall
  else
    match grid[y.toInt.toNat]? with
    | none => .wall
    | some row =>
      match row[x.toInt.toNat]? with
      | none => .wall
      | some code => .ofCode code

/-! ## Headings -/

/-- The quarter turn of a heading: 0 east, 1 south, 2 west, 3 north. -/
def quarterTurn (dir : Int32) : Nat := (dir.toInt % 4).toNat

/-- One cell ahead of a heading; south is down. -/
def ahead (dir : Int32) : Int32 × Int32 :=
  match quarterTurn dir with
  | 0 => (1, 0)
  | 1 => (0, 1)
  | 2 => (-1, 0)
  | _ => (0, -1)

/-! ## The walk -/

/-- The column of the first start cell of a row. -/
def startColumn (row : List UInt8) : Option Nat := row.findIdx? (· == startCode)

/-- The first start cell, row by row from the row numbered `y`. -/
def startCell (y : Nat) : List (List UInt8) → Option (Nat × Nat)
  | [] => none
  | row :: rows =>
    match startColumn row with
    | some x => some (x, y)
    | none => startCell (y + 1) rows

/-- The robot at the start of a puzzle: where the puzzle says, its numbers cut to whole words, or
on the first start cell facing east. -/
def start (puzzle : Puzzle) : Except Fault Robot :=
  if puzzle.grid.isEmpty then .error ⟨.maze, .missingSection "grid"⟩
  else
    match puzzle.start with
    | some start => .ok ⟨start.x.toInt32, start.y.toInt32, start.dir.toInt32⟩
    | none =>
      match startCell 0 puzzle.grid with
      | some (x, y) => .ok ⟨.ofNat x, .ofNat y, 0⟩
      | none => .error ⟨.maze, .badGrid "no start cell"⟩

/-- Walk one cell ahead. -/
def advance (robot : Robot) (puzzle : Puzzle) : Robot × Signal :=
  let (dx, dy) := ahead robot.dir
  let (x, y) := (robot.x + dx, robot.y + dy)
  match cellAt puzzle.grid x y with
  | .wall => (robot, .lost)
  | .goal => ({ robot with x, y }, .win)
  | .free => ({ robot with x, y }, .running)

/-- Do an action. -/
def act (robot : Robot) (action : Action) (puzzle : Puzzle) : Robot × Signal :=
  match action.command with
  | .move _ => advance robot puzzle
  | .turnLeft => ({ robot with dir := robot.dir - 1 }, .running)
  | .turnRight => ({ robot with dir := robot.dir + 1 }, .running)
  | _ => (robot, .running)

/-- The robot of a world, or the one at the start of the puzzle. -/
def robotOf (prior : Option World) (puzzle : Puzzle) : Except Fault Robot :=
  match prior with
  | some (.maze robot) => .ok robot
  | some other => .error (mismatch .maze other)
  | none => start puzzle

def step (prior : Option World) (action : Option Action) (puzzle : Puzzle) :
    Except Fault Transition := do
  let robot ← robotOf prior puzzle
  match action with
  | none => return .running (.maze robot)
  | some action =>
    let (next, status) := act robot action puzzle
    return ⟨.maze next, status⟩

/-- The robot stands on a goal. -/
def solved (state : World) (puzzle : Puzzle) (_reference : Option Reference) :
    Except Fault Bool :=
  match state with
  | .maze robot => .ok (cellAt puzzle.grid robot.x robot.y == .goal)
  | other => .error (mismatch .maze other)

def rules : Rules := ⟨.maze, step, solved⟩

end PuzzlePlayback.Walk
