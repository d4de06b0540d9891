import PuzzlePlayback.Decimal.Notation
import PuzzlePlayback.Json.Basic

/-!
# Writing JSON text

Values are written either on one line without spaces or spread over lines with two spaces of
indentation. A double is written with the fewest digits that identify it, positionally below
10^16 and from 10^-5 on, and keeps a `.0` when it is whole.
-/

namespace PuzzlePlayback.Json

/-- The layout of a double: `2.5`, `3.0`, `1e+16`, `1.5e-7`. -/
def doubleLayout : Decimal.Layout where
  tie := .even
  maxWhole := some 16
  maxZeros := some 4
  pointZero := true

/-- A hexadecimal digit in lower case. -/
def hexDigit (n : Nat) : Char := (Nat.digitChar n)

/-- A character inside quotes. -/
def escapeChar (c : Char) : List Char :=
  match c with
  | '"' => ['\\', '"']
  | '\\' => ['\\', '\\']
  | '\x08' => ['\\', 'b']
  | '\x0c' => ['\\', 'f']
  | '\n' => ['\\', 'n']
  | '\r' => ['\\', 'r']
  | '\t' => ['\\', 't']
  | c =>
    if c.toNat < 0x20 then ['\\', 'u', '0', '0', hexDigit (c.toNat / 16), hexDigit (c.toNat % 16)]
    else [c]

/-- A text in quotes. -/
def quote (text : String) : String :=
  "\"" ++ String.ofList (text.toList.flatMap escapeChar) ++ "\""

/-- A value without parts. -/
def renderDouble (x : Float) : String :=
  if x.isFinite then doubleLayout.render x else "null"

mutual

/-- A value on one line. -/
def compact : Json → String
  | .null => "null"
  | .bool value => if value then "true" else "false"
  | .int value => toString value
  | .float value => renderDouble value
  | .string value => quote value
  | .array items => "[" ++ ",".intercalate (compactItems items) ++ "]"
  | .object fields => "\x7b" ++ ",".intercalate (compactFields fields) ++ "\x7d"
  | .unreadable => "null"

def compactItems : List Json → List String
  | [] => []
  | item :: items => compact item :: compactItems items

def compactFields : List (String × Json) → List String
  | [] => []
  | (name, value) :: fields => (quote name ++ ":" ++ compact value) :: compactFields fields

end

/-- The lines of a bracketed list: its parts one step further in, with commas between them. -/
def bracket (first last : String) (parts : List (List String)) : List String :=
  let rec joined : List (List String) → List String
    | [] => []
    | [part] => part
    | part :: parts =>
      match part.reverse with
      | [] => joined parts
      | line :: lines => (lines.reverse ++ [line ++ ","]) ++ joined parts
  if parts.isEmpty then [first ++ last]
  else first :: (joined parts).map ("  " ++ ·) ++ [last]

/-- Put a label in front of the first line. -/
def label (name : String) : List String → List String
  | [] => []
  | line :: lines => (quote name ++ ": " ++ line) :: lines

mutual

/-- The lines of a value. -/
def lines : Json → List String
  | .array items => bracket "[" "]" (linesOfItems items)
  | .object fields => bracket "\x7b" "\x7d" (linesOfFields fields)
  | .null => [compact .null]
  | .bool value => [compact (.bool value)]
  | .int value => [compact (.int value)]
  | .float value => [compact (.float value)]
  | .string value => [compact (.string value)]
  | .unreadable => [compact .unreadable]

def linesOfItems : List Json → List (List String)
  | [] => []
  | item :: items => lines item :: linesOfItems items

def linesOfFields : List (String × Json) → List (List String)
  | [] => []
  | (name, value) :: fields => label name (lines value) :: linesOfFields fields

end

/-- A value spread over lines. -/
def pretty (json : Json) : String := "\n".intercalate json.lines

end PuzzlePlayback.Json
