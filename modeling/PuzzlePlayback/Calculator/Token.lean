import PuzzlePlayback.Calculator.Fraction
import PuzzlePlayback.Text.Blank
import PuzzlePlayback.Text.Letter

/-!
# Tokens of an expression

Text is cut into numbers, names and signs, each number and name as long as possible. Blanks
separate tokens and are dropped. The minus, times and division signs have typographic variants.
-/

namespace PuzzlePlayback.Calculator

/-- A lexical unit of an expression. -/
inductive Token
  | number (value : Fraction)
  | name (text : String)
  | plus
  | minus
  | times
  | over
  | power
  | leftParen
  | rightParen
deriving DecidableEq

namespace Token

/-- How an error message names a token. -/
def describe : Token → String
  | .number q =>
    "Num(Rational \x7b num: " ++ toString q.num ++ ", den: " ++ toString q.den ++ " \x7d)"
  | .name text => "Ident(\"" ++ text ++ "\")"
  | .plus => "Plus"
  | .minus => "Minus"
  | .times => "Star"
  | .over => "Slash"
  | .power => "Caret"
  | .leftParen => "LParen"
  | .rightParen => "RParen"

/-- The sign a character stands for. -/
def ofSign? : Char → Option Token
  | '+' => some .plus
  | '-' | '−' => some .minus
  | '*' | '×' | '·' => some .times
  | '/' | '÷' => some .over
  | '^' => some .power
  | '(' => some .leftParen
  | ')' => some .rightParen
  | _ => none

/-- The characters of a decimal literal. -/
def isNumberChar (c : Char) : Bool := c.isDigit || c == '.'

theorem length_dropWhile_lt {p : Char → Bool} (c : Char) (cs : List Char) :
    (cs.dropWhile p).length < (c :: cs).length :=
  Nat.lt_succ_of_le (List.dropWhile_sublist p).length_le

/-- Cut characters into tokens. -/
def scan : List Char → Except Failure (List Token)
  | [] => .ok []
  | c :: cs =>
    if Text.isBlank c then scan cs
    else if isNumberChar c then do
      let value ← Fraction.ofLiteral (String.ofList (c :: cs.takeWhile isNumberChar))
      return .number value :: (← scan (cs.dropWhile isNumberChar))
    else if Text.isLetter c then do
      let name := String.ofList (c :: cs.takeWhile Text.isNameChar)
      return .name name :: (← scan (cs.dropWhile Text.isNameChar))
    else
      match ofSign? c with
      | some token => return token :: (← scan cs)
      | none => .error (.malformed ("unexpected `" ++ String.singleton c ++ "`"))
termination_by cs => cs.length
decreasing_by all_goals first | exact length_dropWhile_lt c cs | exact Nat.lt_succ_self _

end Token

/-- The tokens of a text. -/
def tokensOf (text : String) : Except Failure (List Token) := Token.scan text.toList

end PuzzlePlayback.Calculator
