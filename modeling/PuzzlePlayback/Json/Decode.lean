import PuzzlePlayback.Json.Basic

/-!
# Reading values of a format

Readers from JSON values to plain values. A reader is strict about kinds and ranges and gives
`none` for anything else. A record is an object, in which unknown fields are ignored and a known
field may appear once, or the array of its fields in order, shortened where the last ones have
defaults.
-/

namespace PuzzlePlayback.Json

/-! ## Plain values -/

def asBool? : Json → Option Bool
  | .bool value => some value
  | _ => none

def asString? : Json → Option String
  | .string value => some value
  | _ => none

/-- Any number. -/
def asFloat? : Json → Option Float
  | .int n => some (Float.ofInt n)
  | .float x => some x
  | _ => none

/-- A whole number from `low` to `high`; a number written with a point is not whole. -/
def asInt? (low high : Int) : Json → Option Int
  | .int n => if low ≤ n ∧ n ≤ high then some n else none
  | _ => none

def asNat? (high : Nat) (json : Json) : Option Nat := (json.asInt? 0 high).map Int.toNat

def asUInt8? (json : Json) : Option UInt8 := (json.asNat? (UInt8.size - 1)).map UInt8.ofNat

def asUInt32? (json : Json) : Option UInt32 := (json.asNat? (UInt32.size - 1)).map UInt32.ofNat

def asInt32? (json : Json) : Option Int32 :=
  (json.asInt? Int32.minValue.toInt Int32.maxValue.toInt).map Int32.ofInt

/-- Every item of an array. -/
def asList? {α : Type} (item : Json → Option α) : Json → Option (List α)
  | .array items => items.mapM item
  | _ => none

/-- Null, or a value. -/
def asOption? {α : Type} (value : Json → Option α) : Json → Option (Option α)
  | .null => some none
  | json => (value json).map some

/-- The name of an alternative without content: a string, or an object with that name as its
only field and `empty` content. -/
def asName? (empty : Json → Bool) : Json → Option String
  | .string name => some name
  | .object [(name, content)] => if empty content then some name else none
  | _ => none

def isNull : Json → Bool
  | .null => true
  | _ => false

/-- Nothing, written as null or as an object without fields. -/
def isNothing : Json → Bool
  | .null => true
  | .object [] => true
  | _ => false

/-! ## Records -/

/-- The values of the fields with a name. -/
def fieldsNamed (fields : List (String × Json)) (name : String) : List Json :=
  (fields.filter (·.1 == name)).map (·.2)

/-- The value of a field that may be absent but not repeated. -/
def uniqueField (fields : List (String × Json)) (name : String) : Option (Option Json) :=
  match fieldsNamed fields name with
  | [] => some none
  | [value] => some (some value)
  | _ => none

/-- The values of the named fields of a record, `none` for an absent one. -/
def slots (names : List String) : Json → Option (List (Option Json))
  | .object fields => names.mapM (uniqueField fields)
  | .array items =>
    if items.length ≤ names.length then
      some (items.map some ++ List.replicate (names.length - items.length) none)
    else none
  | _ => none

/-- A field that has to be there. -/
def required {α : Type} (read : Json → Option α) (slot : Option Json) : Option α := slot.bind read

/-- A field with a default. -/
def defaulted {α : Type} (default : α) (read : Json → Option α) : Option Json → Option α
  | none => some default
  | some json => read json

/-- A field that may be absent or null. -/
def optional {α : Type} (read : Json → Option α) (slot : Option Json) : Option (Option α) :=
  defaulted none (asOption? read) slot

end PuzzlePlayback.Json
