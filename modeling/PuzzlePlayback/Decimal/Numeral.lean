import PuzzlePlayback.Decimal.Binary

/-!
# Reading doubles written in decimal

A numeral is an optional sign and either decimal digits with an optional point and an optional
power of ten, or one of the words for infinity and for the undefined value. Its value is the
double closest to the decimal.
-/

namespace PuzzlePlayback.Decimal

/-- The value of a run of digits. -/
def digitsValue (digits : List Char) : Nat :=
  digits.foldl (fun n c => 10 * n + (c.toNat - '0'.toNat)) 0

/-- Split off a leading sign; true means minus. -/
def splitSign : List Char → Bool × List Char
  | '-' :: cs => (true, cs)
  | '+' :: cs => (false, cs)
  | cs => (false, cs)

/-- The exponent after the digits of a numeral, zero if there is none. -/
def exponentPart : List Char → Option Int
  | [] => some 0
  | c :: cs =>
    if c == 'e' || c == 'E' then
      let (negative, digits) := splitSign cs
      if digits.isEmpty || !digits.all Char.isDigit then none
      else some (if negative then -(digitsValue digits : Int) else digitsValue digits)
    else none

/-- The double closest to `significand * 10 ^ exponent`. Powers of ten beyond every double are
not computed: the significand has `size` digits, which bounds the value. -/
def ofDecimal (significand size : Nat) (exponent : Int) : Float :=
  if significand = 0 || size + exponent < -400 then 0
  else if 400 < exponent then nearest (Nat.pow 2 1024) 1
  else if 0 ≤ exponent then nearest (significand * Nat.pow 10 exponent.toNat) 1
  else nearest significand (Nat.pow 10 (-exponent).toNat)

/-- A numeral without its sign. -/
def unsigned? (cs : List Char) : Option Float :=
  let word := (String.ofList cs).toLower
  if word = "inf" || word = "infinity" then some (nearest (Nat.pow 2 1024) 1)
  else if word = "nan" then some (0.0 / 0.0)
  else
    let whole := cs.takeWhile Char.isDigit
    let rest := cs.dropWhile Char.isDigit
    let (decimals, rest) :=
      match rest with
      | '.' :: rest => (rest.takeWhile Char.isDigit, rest.dropWhile Char.isDigit)
      | rest => ([], rest)
    let digits := whole ++ decimals
    if digits.isEmpty then none
    else (exponentPart rest).map fun exponent =>
      ofDecimal (digitsValue digits) digits.length (exponent - decimals.length)

/-- Read a whole text as a double. -/
def float? (text : String) : Option Float :=
  let (negative, cs) := splitSign text.toList
  (unsigned? cs).map fun x => if negative then -x else x

end PuzzlePlayback.Decimal
