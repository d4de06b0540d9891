import PuzzlePlayback.Format.Value
import PuzzlePlayback.Json.Reader
import PuzzlePlayback.Program.Compilation

/-!
# The JSON form of programs

An action is an object whose field `type` names its command, beside the fields of that command and
an optional `id`. A command that is not known is read as one that does nothing. A command may also
be given by its number in the list of commands. A program file is an array of actions, or an object
with `actions` and an optional `blockCount`; without a count every action is a block.
-/

namespace PuzzlePlayback

open Json

def Pen.name : Pen → String
  | .up => "up"
  | .down => "down"

def Pen.ofName? : String → Option Pen
  | "up" => some .up
  | "down" => some .down
  | _ => none

def Pen.ofJson? (json : Json) : Option Pen := (json.asName? isNothing).bind ofName?

/-- An operator is named by its sign or by a word. -/
def Operator.ofName? : String → Option Operator
  | "+" | "add" => some .add
  | "-" | "subtract" => some .subtract
  | "*" | "multiply" => some .multiply
  | "/" | "divide" => some .divide
  | _ => none

def Operator.ofJson? (json : Json) : Option Operator := (json.asName? isNothing).bind ofName?

namespace Command

/-- The names of the commands, in the order of their numbers. -/
def names : List String :=
  ["MOVE", "TURN_LEFT", "TURN_RIGHT", "TURN", "PEN", "COLOR", "SET", "PRINT", "OP_BOTH", "SCAN",
    "UNKNOWN"]

/-- The name given by a `type` field. -/
def nameOfTag? : Json → Option String
  | .string name => some name
  | .int n => if 0 ≤ n then some (names[n.toNat]?.getD "UNKNOWN") else none
  | _ => none

def name : Command → String
  | .move _ => "MOVE"
  | .turnLeft => "TURN_LEFT"
  | .turnRight => "TURN_RIGHT"
  | .turn _ => "TURN"
  | .pen _ => "PEN"
  | .color _ => "COLOR"
  | .set _ _ => "SET"
  | .print _ => "PRINT"
  | .bothSides _ _ => "OP_BOTH"
  | .scan => "SCAN"
  | .unknown => "UNKNOWN"

/-- The fields beside the name. -/
def toFields : Command → List (String × Json)
  | .move dist => optionalField "dist" Json.ofFloat dist
  | .turn angle => [("angle", .ofFloat angle)]
  | .pen state => [("state", .string state.name)]
  | .color c => [("color", .string c)]
  | .set var val => [("var", .string var), ("val", val.toJson)]
  | .print msg => [("msg", .string msg)]
  | .bothSides operator value => [("operator", .string operator.symbol), ("value", .string value)]
  | _ => []

/-- The command with a name, its content taken from the fields of an object. -/
def ofFields? (name : String) (fields : List (String × Json)) : Option Command :=
  let field {α : Type} (name : String) (read : Json → Option α) : Option α :=
    (uniqueField fields name).bind (required read)
  match name with
  | "MOVE" => (uniqueField fields "dist").bind fun dist => (optional asFloat? dist).map .move
  | "TURN_LEFT" => some .turnLeft
  | "TURN_RIGHT" => some .turnRight
  | "TURN" => (field "angle" asFloat?).map .turn
  | "PEN" => (field "state" Pen.ofJson?).map .pen
  | "COLOR" => (field "color" asString?).map .color
  | "SET" => do return .set (← field "var" asString?) (← field "val" Value.ofJson?)
  | "PRINT" => (field "msg" asString?).map .print
  | "OP_BOTH" => do
    return .bothSides (← field "operator" Operator.ofJson?) (← field "value" asString?)
  | "SCAN" => some .scan
  | _ => some .unknown

end Command

namespace Action

def toJson (action : Action) : Json :=
  .object (optionalField "id" .string action.id ++
    ("type", .string action.command.name) :: action.command.toFields)

def ofJson? : Json → Option Action
  | .object fields => do
    guard (fieldsReadable fields)
    let id ← optional asString? (← uniqueField fields "id")
    let tag ← required Command.nameOfTag? (← uniqueField fields "type")
    let command ← Command.ofFields? tag fields
    return ⟨id, command⟩
  | _ => none

end Action

namespace Program

def ofJson? : Json → Option Program
  | .array items => (items.mapM Action.ofJson?).map ofActions
  | .object fields => do
    guard (fieldsReadable fields)
    let actions ← required (asList? Action.ofJson?) (← uniqueField fields "actions")
    match ← optional asUInt32? (← uniqueField fields "blockCount") with
    | some count => return ⟨actions, count⟩
    | none => return ofActions actions
  | _ => none

/-- Read a program file. -/
def ofText (text : String) : Except CompilationError Program :=
  match (Json.read text).bind ofJson? with
  | some program => .ok program
  | none => .error ⟨"unreadable program", none⟩

end Program

end PuzzlePlayback
