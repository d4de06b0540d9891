import PuzzlePlayback.Decimal.Numeral
import PuzzlePlayback.Json.Basic

/-!
# Reading JSON numbers

A number without point and exponent is whole if it fits a 64-bit word, and minus zero is not
whole. Every other number becomes a double in two roundings: its leading digits, as many as fit
an unsigned 64-bit word, are taken to the nearest double, which is then multiplied or divided by
a power of ten. A number too large for a double is unreadable.
-/

namespace PuzzlePlayback.Json

/-- The largest unsigned 64-bit word. -/
def maxWord : Nat := UInt64.size - 1

/-- The power `10 ^ n` as a double, for `n` up to 308. -/
def doubleTen (n : Nat) : Float := Decimal.nearestNat (Nat.pow 10 n)

/-- Divide by a power of ten, in steps that are doubles. -/
def scaleDown (x : Float) (n : Nat) : Float :=
  if n ≤ 308 then x / doubleTen n
  else if x == 0 then x
  else scaleDown (x / doubleTen 308) (n - 308)
termination_by n

/-- Multiply by a power of ten, unless the result is no double. -/
def scaleUp (x : Float) (n : Nat) : Option Float :=
  if n ≤ 308 then
    let scaled := x * doubleTen n
    if scaled.isInf then none else some scaled
  else if x == 0 then some x else none

/-- `significand * 10 ^ exponent`. -/
def scale (significand : Nat) (exponent : Int) : Option Float :=
  let x := Decimal.nearestNat significand
  if 0 ≤ exponent then scaleUp x exponent.toNat else some (scaleDown x (-exponent).toNat)

/-- Append digits to a significand while it fits a word. The digits that do not fit are left. -/
def takeDigits (significand : Nat) : List Char → Nat × List Char
  | [] => (significand, [])
  | c :: cs =>
    let next := 10 * significand + (c.toNat - '0'.toNat)
    if maxWord < next then (significand, c :: cs) else takeDigits next cs

/-- The double written with these digits before and after the point and this exponent. -/
def floatOf (whole decimals : List Char) (exponent : Int) : Option Float :=
  let (significand, dropped) := takeDigits 0 whole
  let (significand, ignored) := takeDigits significand decimals
  scale significand (exponent + dropped.length - (decimals.length - ignored.length : Nat))

/-- The digits after a point, if a point comes next; a point must be followed by a digit. -/
def fraction : List Char → Option (Option (List Char) × List Char)
  | '.' :: cs =>
    let digits := cs.takeWhile Char.isDigit
    if digits.isEmpty then none else some (some digits, cs.dropWhile Char.isDigit)
  | cs => some (none, cs)

/-- The exponent, if an exponent mark comes next; the mark must be followed by a digit, perhaps
after a sign. -/
def exponent : List Char → Option (Option Int × List Char)
  | [] => some (none, [])
  | c :: cs =>
    if c == 'e' || c == 'E' then
      let (negative, cs) := Decimal.splitSign cs
      let digits := cs.takeWhile Char.isDigit
      if digits.isEmpty then none
      else
        let n : Int := Decimal.digitsValue digits
        some (some (if negative then -n else n), cs.dropWhile Char.isDigit)
    else some (none, c :: cs)

/-- The number of these parts. -/
def ofParts (negative : Bool) (whole : List Char) (decimals : Option (List Char))
    (exponent : Option Int) : Json :=
  let n := Decimal.digitsValue whole
  let isWhole := decimals.isNone && exponent.isNone
  if isWhole && !negative && n ≤ maxWord then .int n
  else if isWhole && negative && n ≠ 0 && n ≤ UInt64.size / 2 then .int (-n)
  else
    match floatOf whole (decimals.getD []) (exponent.getD 0) with
    | some x => .float (if negative then -x else x)
    | none => .unreadable

/-- Read a number from the front of a text, and return what follows it. A whole part of several
digits does not start with zero. -/
def number (cs : List Char) : Option (Json × List Char) := do
  let (negative, cs) := match cs with
    | '-' :: cs => (true, cs)
    | cs => (false, cs)
  let whole := cs.takeWhile Char.isDigit
  let cs := cs.dropWhile Char.isDigit
  guard (!whole.isEmpty && (whole.length == 1 || whole.head? != some '0'))
  let (decimals, cs) ← fraction cs
  let (exponent, cs) ← exponent cs
  return (ofParts negative whole decimals exponent, cs)

end PuzzlePlayback.Json
