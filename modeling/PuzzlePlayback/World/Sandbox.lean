import PuzzlePlayback.World.Rules

/-!
# The memory sandbox

Variables are written and texts printed to a console. Hidden and locked variables keep their
value; an attempt to write one leaves a line on the console.
-/

namespace PuzzlePlayback.Sandbox

/-- The variables of the puzzle and an empty console. -/
def start (puzzle : Puzzle) : Memory := ⟨puzzle.inputs, []⟩

/-- The console line of a write that was refused. -/
def lockedLine (var : String) : String := "Error: variable '" ++ var ++ "' is locked"

/-- The console line of a write. -/
def writtenLine (var : String) (val : Value) : String := var ++ " = " ++ val.render

/-- Put a line at the end of the console. -/
def print (memory : Memory) (line : String) : Memory :=
  { memory with console := memory.console ++ [line] }

/-- Write a variable unless it is protected. -/
def write (memory : Memory) (var : String) (val : Value) (puzzle : Puzzle) : Memory :=
  if puzzle.protects var then print memory (lockedLine var)
  else print { memory with bindings := memory.bindings.insert var val } (writtenLine var val)

/-- Do an action. -/
def act (memory : Memory) (action : Action) (puzzle : Puzzle) : Memory :=
  match action.command with
  | .set var val => write memory var val puzzle
  | .print msg => print memory msg
  | _ => memory

/-- The memory of a world, or the one at the start of the puzzle. -/
def memoryOf (prior : Option World) (puzzle : Puzzle) : Except Fault Memory :=
  match prior with
  | some (.math memory) => .ok memory
  | some other => .error (mismatch .math other)
  | none => .ok (start puzzle)

def step (prior : Option World) (action : Option Action) (puzzle : Puzzle) :
    Except Fault Transition := do
  let memory ← memoryOf prior puzzle
  match action with
  | none => return .running (.math memory)
  | some action => return .running (.math (act memory action puzzle))

/-- Does a variable hold what a target expects? A variable that does not exist holds nothing. -/
def meets (bindings : SortedMap String Value) (target : Target) : Bool :=
  match bindings.get? target.var with
  | none => false
  | some actual =>
    match target.expect with
    | .value expected => actual.agrees expected
    | .sameAs other =>
      match bindings.get? other with
      | none => false
      | some expected => actual.agrees expected

/-- Every target is met. -/
def solved (state : World) (puzzle : Puzzle) (_reference : Option Reference) :
    Except Fault Bool :=
  match state with
  | .math memory => .ok (puzzle.targets.all (meets memory.bindings))
  | other => .error (mismatch .math other)

def rules : Rules := ⟨.math, step, solved⟩

end PuzzlePlayback.Sandbox
