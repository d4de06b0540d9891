import PuzzlePlayback.Calculator.Expression
import PuzzlePlayback.World.Rules

/-!
# The equation solver

The learner applies one operation after another to both sides until the unknown stands alone.
The sides are kept as canonical text, so the same actions always lead to the same characters.
An operation that cannot be carried out is recorded and changes nothing.
-/

namespace PuzzlePlayback.Solver

open Calculator

/-! ## Operations on both sides -/

/-- Why an operation was refused. -/
inductive Refusal
  | calculation (error : Failure)
  | zeroFactor
  | variableFactor
deriving DecidableEq

def Refusal.message : Refusal → String
  | .calculation error => error.message
  | .zeroFactor => "multiplying both sides by zero loses the equation"
  | .variableFactor => "an inequality can only be scaled by a constant"

/-- A pair of sides and the relation between them. -/
structure Sides where
  lhs : Laurent
  rhs : Laurent
  sign : Relation
deriving DecidableEq

/-- The value of the unknown once it stands alone on one side and a number on the other. -/
def solution? (lhs rhs : Laurent) : Option Fraction :=
  if lhs.isVar then rhs.constant?
  else if rhs.isVar then lhs.constant?
  else none

/-- Apply an operation to both sides, the left one first. -/
def onBoth (operation : Laurent → Laurent → Except Failure Laurent) (sides : Sides)
    (operand : Laurent) : Except Refusal Sides :=
  match operation sides.lhs operand with
  | .error e => .error (.calculation e)
  | .ok lhs =>
    match operation sides.rhs operand with
    | .error e => .error (.calculation e)
    | .ok rhs => .ok ⟨lhs, rhs, sides.sign⟩

/-- The relation after both sides are scaled: an inequality is only scaled by a constant, and a
negative one turns it around. -/
def scaledSign (sign : Relation) (operand : Laurent) : Except Refusal Relation :=
  if sign = .eq then .ok sign
  else
    match operand.constant? with
    | none => .error .variableFactor
    | some factor => .ok (if factor.isNegative then sign.reversed else sign)

/-- Apply `operator operand` to both sides. -/
def Sides.apply (sides : Sides) (operator : Operator) (operand : Laurent) : Except Refusal Sides :=
  match operator with
  | .add => onBoth Laurent.add sides operand
  | .subtract => onBoth Laurent.sub sides operand
  | .multiply =>
    match scaledSign sides.sign operand with
    | .error e => .error e
    | .ok sign =>
      if operand.constant? = some .zero then .error .zeroFactor
      else onBoth Laurent.mul { sides with sign } operand
  | .divide =>
    match scaledSign sides.sign operand with
    | .error e => .error e
    | .ok sign => onBoth Laurent.div { sides with sign } operand

/-! ## The authored equation -/

/-- The equation section of a puzzle. -/
def authoredOf (puzzle : Puzzle) : Except Fault AuthoredEquation :=
  match puzzle.equation with
  | some authored => .ok authored
  | none => .error ⟨.equation, .missingSection "equation"⟩

/-- Read a side of an equation. -/
def readSide (text : String) (x : String) : Except Fault Laurent :=
  match Laurent.ofText text x with
  | .ok p => .ok p
  | .error e => .error ⟨.equation, .badExpression text e.message⟩

/-- Read the relation of an authored equation. -/
def relationOf (authored : AuthoredEquation) : Except Fault Relation :=
  match Relation.ofText? authored.sign with
  | some sign => .ok sign
  | none => .error ⟨.equation, .badExpression authored.sign "unknown relation"⟩

/-- The authored equation in canonical form. -/
def start (puzzle : Puzzle) : Except Fault Equation := do
  let authored ← authoredOf puzzle
  let lhs ← readSide authored.lhs authored.unknown
  let rhs ← readSide authored.rhs authored.unknown
  let sign ← relationOf authored
  return {
    lhs := lhs.render authored.unknown authored.implicit
    rhs := rhs.render authored.unknown authored.implicit
    sign
    implicit := authored.implicit
    history := []
    latest := none
    check := none }

/-- The text of a value that may not exist. -/
def shown : Except Failure Fraction → String
  | .ok value => value.render
  | .error _ => "undefined"

/-- Put a value into the authored equation. -/
def check (authored : AuthoredEquation) (value : Fraction) : Except Fault Check := do
  let lhs := (← readSide authored.lhs authored.unknown).eval value
  let rhs := (← readSide authored.rhs authored.unknown).eval value
  return {
    value := value.render
    lhs := shown lhs
    rhs := shown rhs
    agree :=
      match lhs, rhs with
      | .ok l, .ok r => Relation.eq.allows (compare l r)
      | _, _ => false }

/-! ## Playing -/

/-- The result of reading an operand and applying it to both sides. -/
def attempt (sides : Sides) (operator : Operator) (operand : String) (x : String) :
    Except Refusal Sides :=
  match Laurent.ofText operand x with
  | .ok p => Sides.apply sides operator p
  | .error e => .error (.calculation e)

/-- The equation with its present sides put on record and the latest operation noted. -/
def record (equation : Equation) (operator : Operator) (operand : String) (applied : Bool) :
    Equation :=
  { equation with
    history := equation.history ++ [⟨equation.lhs, equation.sign, equation.rhs⟩]
    latest := some ⟨operator, operand, applied⟩ }

/-- Play an operation on both sides. An operation that isolates the unknown wins, and the
solution of an equation (an inequality has no single one) is checked in the authored sides. -/
def operate (equation : Equation) (operator : Operator) (operand : String) (puzzle : Puzzle) :
    Except Fault (Equation × Signal) := do
  let authored ← authoredOf puzzle
  let lhs ← readSide equation.lhs authored.unknown
  let rhs ← readSide equation.rhs authored.unknown
  match attempt ⟨lhs, rhs, equation.sign⟩ operator operand authored.unknown with
  | .error _ => return (record equation operator operand false, .running)
  | .ok sides =>
    let next := { record equation operator operand true with
      lhs := sides.lhs.render authored.unknown equation.implicit
      rhs := sides.rhs.render authored.unknown equation.implicit
      sign := sides.sign }
    match solution? sides.lhs sides.rhs with
    | none => return (next, .running)
    | some value =>
      if sides.sign = .eq then
        return ({ next with check := some (← check authored value) }, .win)
      else return (next, .win)

/-- The equation of a world, or the one at the start of the puzzle. -/
def equationOf (prior : Option World) (puzzle : Puzzle) : Except Fault Equation :=
  match prior with
  | some (.equation equation) => .ok equation
  | some other => .error (mismatch .equation other)
  | none => start puzzle

def step (prior : Option World) (action : Option Action) (puzzle : Puzzle) :
    Except Fault Transition := do
  let equation ← equationOf prior puzzle
  match action.map Action.command with
  | some (Command.bothSides operator value) =>
    let (next, status) ← operate equation operator (Text.trim value) puzzle
    return ⟨.equation next, status⟩
  | _ => return .running (.equation equation)

/-- The unknown stands alone on one side and a number on the other. -/
def solved (state : World) (puzzle : Puzzle) (_reference : Option Reference) :
    Except Fault Bool :=
  match state with
  | .equation equation => do
    let authored ← authoredOf puzzle
    let lhs ← readSide equation.lhs authored.unknown
    let rhs ← readSide equation.rhs authored.unknown
    return (solution? lhs rhs).isSome
  | other => .error (mismatch .equation other)

def rules : Rules := ⟨.equation, step, solved⟩

end PuzzlePlayback.Solver
