/-!
# JSON values

A value keeps what a strict reader of a format needs to see: the fields of an object in the order
of the text, repeated ones included, and whether a number was written as a whole number or with a
point or exponent. Text that is well formed and yet stands for no value is kept as `unreadable`,
because it does no harm in a field that nobody asks for.
-/

namespace PuzzlePlayback

/-- A JSON value. -/
inductive Json
  | null
  | bool (value : Bool)
  /-- A number written without point and exponent that fits a 64-bit word, signed or not. -/
  | int (value : Int)
  /-- Any other number. -/
  | float (value : Float)
  | string (value : String)
  | array (items : List Json)
  | object (fields : List (String × Json))
  /-- A number beyond every double, a string with half a surrogate pair, an object with such a
  name, or a container that is nested too deep. -/
  | unreadable

instance : Inhabited Json := ⟨.null⟩

namespace Json

mutual

/-- Does every part of a value stand for something? -/
def isReadable : Json → Bool
  | .unreadable => false
  | .array items => itemsReadable items
  | .object fields => fieldsReadable fields
  | _ => true

def itemsReadable : List Json → Bool
  | [] => true
  | item :: items => isReadable item && itemsReadable items

def fieldsReadable : List (String × Json) → Bool
  | [] => true
  | (_, value) :: fields => isReadable value && fieldsReadable fields

end

/-- A number, or null for a value that JSON cannot write. -/
def ofFloat (x : Float) : Json := if x.isFinite then .float x else .null

/-- A value that may be absent. -/
def ofOption {α : Type} (f : α → Json) : Option α → Json
  | none => .null
  | some a => f a

def ofNat (n : Nat) : Json := .int n

/-- A list of values. -/
def ofList {α : Type} (f : α → Json) (items : List α) : Json := .array (items.map f)

/-- A field that is left out when it has no value. -/
def optionalField {α : Type} (name : String) (f : α → Json) : Option α → List (String × Json)
  | none => []
  | some a => [(name, f a)]

end Json

end PuzzlePlayback
