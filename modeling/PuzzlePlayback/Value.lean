import PuzzlePlayback.Decimal.Notation
import PuzzlePlayback.Decimal.Numeral
import PuzzlePlayback.Text.Blank

/-!
# Values of variables

What a variable of the memory mode can hold, how it is written into the console, and the two
comparisons: `same` is strict, `agrees` lets a number equal the text that writes it.
-/

namespace PuzzlePlayback

/-- The content of a variable. -/
inductive Value
  | number (n : Float)
  | text (s : String)
  | list (items : List Value)

namespace Value

instance : Inhabited Value := ⟨.list []⟩

mutual

/-- Equality of kind and content; numbers compare as doubles. -/
def same : Value → Value → Bool
  | .number a, .number b => a == b
  | .text a, .text b => a == b
  | .list a, .list b => sameAll a b
  | _, _ => false

/-- Equality item by item. -/
def sameAll : List Value → List Value → Bool
  | [], [] => true
  | a :: as, b :: bs => same a b && sameAll as bs
  | _, _ => false

end

/-- Does a text write this number? Blanks around it do not count, and a blank text writes zero. -/
def writes (text : String) (n : Float) : Bool :=
  let trimmed := Text.trim text
  if trimmed.isEmpty then n == 0.0
  else
    match Decimal.float? trimmed with
    | some value => value == n
    | none => false

/-- Equality as the learner sees it: lists only equal lists with the same items, and a number
equals a text that writes it. -/
def agrees : Value → Value → Bool
  | .list a, .list b => sameAll a b
  | .number a, .number b => a == b
  | .text a, .text b => a == b
  | .number n, .text s => writes s n
  | .text s, .number n => writes s n
  | _, _ => false

mutual

/-- The console text of a value: numbers in plain decimals and zero without a sign, texts
bare, lists in brackets. -/
def render : Value → String
  | .number n => if n == 0 then "0" else Decimal.plain.render n
  | .text s => s
  | .list items => "[" ++ ", ".intercalate (renderAll items) ++ "]"

/-- The console texts of the items of a list. -/
def renderAll : List Value → List String
  | [] => []
  | item :: items => render item :: renderAll items

end

end Value

end PuzzlePlayback
