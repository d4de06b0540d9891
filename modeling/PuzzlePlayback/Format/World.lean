import PuzzlePlayback.Format.Puzzle
import PuzzlePlayback.World.Basic

/-!
# The JSON form of world states

A world state is a record whose field `mode` comes first and says which fields follow.
-/

namespace PuzzlePlayback

open Json

/-! ## Writing -/

def Robot.toFields (robot : Robot) : List (String × Json) :=
  [("x", .int robot.x.toInt), ("y", .int robot.y.toInt), ("dir", .int robot.dir.toInt)]

def Stroke.toJson (stroke : Stroke) : Json :=
  .object [("x1", .ofFloat stroke.x1), ("y1", .ofFloat stroke.y1), ("x2", .ofFloat stroke.x2),
    ("y2", .ofFloat stroke.y2), ("color", .string stroke.color)]

def Turtle.toFields (turtle : Turtle) : List (String × Json) :=
  [("x", .ofFloat turtle.x), ("y", .ofFloat turtle.y), ("dir", .ofFloat turtle.dir),
    ("penDown", .bool turtle.penDown), ("color", .string turtle.color),
    ("lines", .ofList Stroke.toJson turtle.strokes)]

def Memory.toFields (memory : Memory) : List (String × Json) :=
  [("variables", .object (memory.bindings.entries.map fun entry => (entry.1, entry.2.toJson))),
    ("logs", .ofList .string memory.console)]

def EquationLine.toJson (step : EquationLine) : Json :=
  .object [("lhs", .string step.lhs), ("sign", .string step.sign.symbol), ("rhs", .string step.rhs)]

def Operation.toJson (op : Operation) : Json :=
  .object [("operator", .string op.operator.symbol), ("value", .string op.value),
    ("applied", .bool op.applied)]

def Check.toJson (check : Check) : Json :=
  .object [("value", .string check.value), ("lhs", .string check.lhs), ("rhs", .string check.rhs),
    ("holds", .bool check.agree)]

def Equation.toFields (equation : Equation) : List (String × Json) :=
  [("lhs", .string equation.lhs), ("rhs", .string equation.rhs),
    ("sign", .string equation.sign.symbol), ("implicit", .bool equation.implicit),
    ("history", .ofList EquationLine.toJson equation.history),
    ("lastOp", .ofOption Operation.toJson equation.latest),
    ("verification", .ofOption Check.toJson equation.check)]

def World.toFields : World → List (String × Json)
  | .maze robot => robot.toFields
  | .turtle t => t.toFields
  | .math memory => memory.toFields
  | .equation e => e.toFields

def World.toJson (world : World) : Json :=
  .object (("mode", .string world.mode.name) :: world.toFields)

/-! ## Reading -/

/-- The relation of a sign in its plain form. -/
def Relation.ofName? : String → Option Relation
  | "=" => some .eq
  | "<" => some .lt
  | ">" => some .gt
  | "<=" => some .le
  | ">=" => some .ge
  | _ => none

def Relation.ofJson? (json : Json) : Option Relation := (json.asName? isNothing).bind ofName?

def Robot.ofJson? (json : Json) : Option Robot := do
  let [x, y, dir] ← json.slots ["x", "y", "dir"] | none
  return ⟨← required asInt32? x, ← required asInt32? y, ← required asInt32? dir⟩

def Stroke.ofJson? (json : Json) : Option Stroke := do
  let [x1, y1, x2, y2, color] ← json.slots ["x1", "y1", "x2", "y2", "color"] | none
  return ⟨← required asFloat? x1, ← required asFloat? y1, ← required asFloat? x2,
    ← required asFloat? y2, ← required asString? color⟩

def Turtle.ofJson? (json : Json) : Option Turtle := do
  let [x, y, dir, penDown, color, strokes] ←
    json.slots ["x", "y", "dir", "penDown", "color", "lines"] | none
  return ⟨← required asFloat? x, ← required asFloat? y, ← required asFloat? dir,
    ← required asBool? penDown, ← required asString? color,
    ← required (asList? Stroke.ofJson?) strokes⟩

def Memory.ofJson? (json : Json) : Option Memory := do
  let [bindings, console] ← json.slots ["variables", "logs"] | none
  return ⟨← required bindingsOfJson? bindings, ← required (asList? asString?) console⟩

def EquationLine.ofJson? (json : Json) : Option EquationLine := do
  let [lhs, sign, rhs] ← json.slots ["lhs", "sign", "rhs"] | none
  return ⟨← required asString? lhs, ← required Relation.ofJson? sign, ← required asString? rhs⟩

def Operation.ofJson? (json : Json) : Option Operation := do
  let [operator, value, applied] ← json.slots ["operator", "value", "applied"] | none
  return ⟨← required Operator.ofJson? operator, ← required asString? value,
    ← required asBool? applied⟩

def Check.ofJson? (json : Json) : Option Check := do
  let [value, lhs, rhs, agree] ← json.slots ["value", "lhs", "rhs", "holds"] | none
  return ⟨← required asString? value, ← required asString? lhs, ← required asString? rhs,
    ← required asBool? agree⟩

/-- The last two fields may be null; in an object they may also be absent. -/
def Equation.ofJson? (json : Json) : Option Equation := do
  let [lhs, rhs, sign, implicit, history, latest, check] ←
    json.slots ["lhs", "rhs", "sign", "implicit", "history", "lastOp", "verification"] | none
  if let .array items := json then guard (items.length == 7)
  return {
    lhs := ← required asString? lhs
    rhs := ← required asString? rhs
    sign := ← required Relation.ofJson? sign
    implicit := ← required asBool? implicit
    history := ← required (asList? EquationLine.ofJson?) history
    latest := ← optional Operation.ofJson? latest
    check := ← optional Check.ofJson? check }

/-- The state of a mode; its name has no second form here. -/
def World.ofParts? (mode : String) (json : Json) : Option World :=
  match mode with
  | "maze" => (Robot.ofJson? json).map .maze
  | "turtle" => (Turtle.ofJson? json).map .turtle
  | "math" => (Memory.ofJson? json).map .math
  | "equation" => (Equation.ofJson? json).map .equation
  | _ => none

def World.ofJson? (json : Json) : Option World :=
  match json with
  | .object fields => do
    guard (fieldsReadable fields)
    ofParts? (← required asString? (← uniqueField fields "mode")) json
  | .array (mode :: rest) => do
    guard (itemsReadable rest)
    ofParts? (← mode.asString?) (.array rest)
  | _ => none

end PuzzlePlayback
