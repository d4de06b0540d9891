import PuzzlePlayback.Fault

/-!
# Compiled programs

The learner's blocks are turned into a flat list of actions by a compiler outside this library,
which is asked once for every fresh run.
-/

namespace PuzzlePlayback

/-- A compiled block program. -/
structure Program where
  actions : List Action
  /-- The number of blocks, which the stars depend on. -/
  blockCount : UInt32

namespace Program

/-- A program with one block per action. -/
def ofActions (actions : List Action) : Program :=
  ⟨actions, .ofNat (min actions.length (UInt32.size - 1))⟩

def empty : Program := ofActions []

/-- The number of actions. -/
def size (program : Program) : Nat := program.actions.length

end Program

/-- A source of compiled programs. What it answers may differ from request to request, so it is
known by its answers in order. -/
structure ProgramSource where
  answer : Nat → Except CompilationError Program
  /-- The number of requests so far. -/
  requests : Nat

namespace ProgramSource

/-- Ask for a compilation. -/
def ask (source : ProgramSource) : Except CompilationError Program × ProgramSource :=
  (source.answer source.requests, { source with requests := source.requests + 1 })

/-- The same program every time. -/
def always (program : Program) : ProgramSource := ⟨fun _ => .ok program, 0⟩

/-- The answers of a list in order, the last one again and again; an empty program if there are
none. -/
def ofAnswers (answers : List (Except CompilationError Program)) : ProgramSource :=
  ⟨fun n => (answers[min n (answers.length - 1)]?).getD (.ok .empty), 0⟩

end ProgramSource

/-- How many iterations the loops of a program may still be unrolled to. -/
structure LoopBudget where
  remaining : UInt32
deriving DecidableEq

namespace LoopBudget

/-- The budget of a program whose host does not say. -/
def default : LoopBudget := ⟨1000⟩

/-- Spend one iteration of a loop. -/
def spend (budget : LoopBudget) (blockId : Option String) : Except CompilationError LoopBudget :=
  if budget.remaining = 0 then .error ⟨"loop exceeded its iteration budget", blockId⟩
  else .ok ⟨budget.remaining - 1⟩

end LoopBudget

end PuzzlePlayback
