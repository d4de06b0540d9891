import PuzzlePlayback.Puzzle

/-!
# Faults

What can go wrong apart from losing: a puzzle that cannot be played, a program that does not
compile. Causes are constructors; each type has one function for its wording.
-/

namespace PuzzlePlayback

/-- Why a world could not be built, changed or judged. -/
inductive FaultCause
  | wrongWorld (expected found : Mode)
  | missingSection (part : String)
  | badGrid (detail : String)
  | badExpression (text reason : String)
deriving DecidableEq

/-- A failure of a mode. -/
structure Fault where
  mode : Mode
  cause : FaultCause
deriving DecidableEq

/-- A failure while the action at index `step` was played. -/
structure StepFault where
  step : Nat
  fault : Fault
deriving DecidableEq

/-- The block program could not be turned into actions. -/
structure CompilationError where
  detail : String
  /-- The block at fault, if known. -/
  blockId : Option String
deriving DecidableEq

def FaultCause.message : FaultCause → String
  | .wrongWorld expected found =>
    "expected " ++ expected.name ++ " world state, found " ++ found.name
  | .missingSection part => "level is missing its " ++ part ++ " section"
  | .badGrid detail => "invalid grid: " ++ detail
  | .badExpression text reason => "malformed expression `" ++ text ++ "`: " ++ reason

def Fault.message (fault : Fault) : String :=
  fault.mode.name ++ " simulation fault: " ++ fault.cause.message

/-- Locate a failure at an action. -/
def Fault.at (fault : Fault) (step : Nat) : StepFault := ⟨step, fault⟩

def StepFault.message (fault : StepFault) : String :=
  "action " ++ toString fault.step ++ " faulted"

def CompilationError.message (error : CompilationError) : String :=
  "compilation failed: " ++ error.detail

end PuzzlePlayback
