import PuzzlePlayback.Json.Decode
import PuzzlePlayback.Value

/-!
# The JSON form of values

A number, a string or an array stands for a number, a text or a list; nothing else is a value.
-/

namespace PuzzlePlayback.Value

mutual

def toJson : Value → Json
  | .number n => .ofFloat n
  | .text s => .string s
  | .list items => .array (toJsonAll items)

def toJsonAll : List Value → List Json
  | [] => []
  | item :: items => toJson item :: toJsonAll items

end

mutual

def ofJson? : Json → Option Value
  | .int n => some (.number (Float.ofInt n))
  | .float x => some (.number x)
  | .string s => some (.text s)
  | .array items => (ofJsonAll? items).map .list
  | _ => none

def ofJsonAll? : List Json → Option (List Value)
  | [] => some []
  | item :: items => do return (← ofJson? item) :: (← ofJsonAll? items)

end

end PuzzlePlayback.Value
