import PuzzlePlayback.Calculator.Failure
import PuzzlePlayback.Decimal.Numeral

/-!
# Exact fractions in bounded words

Coefficients are fractions in lowest terms whose numerator and denominator both fit a signed
64-bit word, the least word excluded so that every fraction has an opposite. Arithmetic is exact
or refuses: each operation computes its result in unbounded integers, reduces it, and only then
asks whether it fits (`Fraction.reduce`). An overflow is therefore a property of the result, never
of an intermediate value.
-/

namespace PuzzlePlayback.Calculator

/-- The largest numerator or denominator of a fraction, the greatest signed 64-bit word. -/
def wordLimit : Nat := 9223372036854775807

/-- A fraction in lowest terms with a positive denominator, both parts within `wordLimit`. -/
structure Fraction where
  num : Int
  den : Nat
  den_pos : 0 < den
  reduced : num.natAbs.Coprime den
  num_le : num.natAbs ≤ wordLimit
  den_le : den ≤ wordLimit
deriving DecidableEq

namespace Fraction

@[ext]
theorem ext {a b : Fraction} (hnum : a.num = b.num) (hden : a.den = b.den) : a = b := by
  cases a; cases b; cases hnum; cases hden; rfl

/-! ## Building fractions -/

/-- The whole number `n`, or the nearest one that fits. -/
def ofInt (n : Int) : Fraction where
  num := max (-wordLimit) (min n wordLimit)
  den := 1
  den_pos := Nat.one_pos
  reduced := Nat.coprime_one_right _
  num_le := by
    have : (wordLimit : Int) = 9223372036854775807 := rfl
    have : wordLimit = 9223372036854775807 := rfl
    omega
  den_le := by decide

def zero : Fraction := ofInt 0

def one : Fraction := ofInt 1

instance : Inhabited Fraction := ⟨zero⟩

theorem eq_zero_of_num_eq_zero {q : Fraction} (h : q.num = 0) : q = zero := by
  have hden : q.den = 1 := by simpa [h] using q.reduced
  exact ext (h.trans (by decide)) (hden.trans (by decide))

/-- The numerator of `num / den` in lowest terms, signed as the quotient. -/
def lowestNum (num den : Int) : Int :=
  den.sign * num.sign * (num.natAbs / num.natAbs.gcd den.natAbs : Nat)

/-- The denominator of `num / den` in lowest terms. -/
def lowestDen (num den : Int) : Nat :=
  den.natAbs / num.natAbs.gcd den.natAbs

theorem natAbs_lowestNum {num den : Int} (h : den ≠ 0) :
    (lowestNum num den).natAbs = num.natAbs / num.natAbs.gcd den.natAbs := by
  have hden : den.sign.natAbs = 1 := Int.natAbs_sign_of_ne_zero h
  by_cases hnum : num = 0
  · simp [lowestNum, hnum]
  · have hsign : num.sign.natAbs = 1 := Int.natAbs_sign_of_ne_zero hnum
    simp only [lowestNum, Int.natAbs_mul, hden, hsign, Int.natAbs_natCast, Nat.one_mul]

theorem gcd_natAbs_pos (num : Int) {den : Int} (h : den ≠ 0) :
    0 < num.natAbs.gcd den.natAbs :=
  Nat.gcd_pos_of_pos_right _ (Int.natAbs_pos.2 h)

theorem lowestDen_pos (num : Int) {den : Int} (h : den ≠ 0) : 0 < lowestDen num den :=
  Nat.div_pos (Nat.gcd_le_right _ (Int.natAbs_pos.2 h)) (gcd_natAbs_pos num h)

theorem coprime_lowest {num den : Int} (h : den ≠ 0) :
    (lowestNum num den).natAbs.Coprime (lowestDen num den) := by
  rw [natAbs_lowestNum h]
  exact Nat.coprime_div_gcd_div_gcd (gcd_natAbs_pos num h)

/-- The fraction `num / den`, if its lowest terms fit. -/
def ofQuotient (num den : Int) : Except Failure Fraction :=
  if hden : den = 0 then .error .divisionByZero
  else if hfit : (lowestNum num den).natAbs ≤ wordLimit ∧ lowestDen num den ≤ wordLimit then
    .ok {
      num := lowestNum num den
      den := lowestDen num den
      den_pos := lowestDen_pos num hden
      reduced := coprime_lowest hden
      num_le := hfit.1
      den_le := hfit.2 }
  else .error .overflow

/-! ## Tests -/

def isZero (q : Fraction) : Bool := q.num == 0

def isNegative (q : Fraction) : Bool := q.num < 0

def isInteger (q : Fraction) : Bool := q.den == 1

/-! ## Arithmetic -/

/-- The magnitude. -/
def abs (q : Fraction) : Fraction :=
  { q with
    num := q.num.natAbs
    reduced := q.reduced
    num_le := q.num_le }

/-- The opposite; it always fits, because the bounds are symmetric. -/
def neg (q : Fraction) : Fraction :=
  { q with
    num := -q.num
    reduced := by rw [Int.natAbs_neg]; exact q.reduced
    num_le := by rw [Int.natAbs_neg]; exact q.num_le }

/-- The numerator of a sum over the product of the denominators. -/
def crossSum (a b : Fraction) : Int := a.num * b.den + b.num * a.den

def add (a b : Fraction) : Except Failure Fraction :=
  ofQuotient (crossSum a b) (a.den * b.den)

def sub (a b : Fraction) : Except Failure Fraction := add a b.neg

def mul (a b : Fraction) : Except Failure Fraction :=
  ofQuotient (a.num * b.num) (a.den * b.den)

def div (a b : Fraction) : Except Failure Fraction :=
  ofQuotient (a.num * b.den) (a.den * b.num)

/-- The product of `n` copies of `q`, multiplied onto `product` one at a time. -/
def mulRepeated (q : Fraction) : Nat → Fraction → Except Failure Fraction
  | 0, product => .ok product
  | n + 1, product =>
    match product.mul q with
    | .ok next => mulRepeated q n next
    | .error e => .error e

/-! ## Order and text -/

/-- Cross multiplication decides the order. -/
instance : Ord Fraction := ⟨fun a b => compare (a.num * b.den) (b.num * a.den)⟩

/-- The nearest double of the quotient of the nearest doubles of its parts. -/
def toFloat (q : Fraction) : Float :=
  Float.ofInt q.num / Float.ofNat q.den

/-- A whole number alone, any other fraction with a stroke. -/
def render (q : Fraction) : String :=
  if q.isInteger then toString q.num else toString q.num ++ "/" ++ toString q.den

/-! ## Decimal literals -/

/-- The most digits accepted after the point. -/
def mostDecimals : Nat := 12

/-- Read an unsigned literal such as `12`, `0.25`, `.5` or `3.`: digits with at most one point
and at least one digit. What stands after the point is counted in bytes, in a 32-bit word. -/
def ofLiteral (text : String) : Except Failure Fraction :=
  let cs := text.toList
  let whole := cs.takeWhile (· ≠ '.')
  let decimals := (cs.dropWhile (· ≠ '.')).drop 1
  let places := (String.ofList decimals).utf8ByteSize.toUInt32.toNat
  let bad := Failure.malformed ("bad number `" ++ text ++ "`")
  if whole.isEmpty && decimals.isEmpty then .error bad
  else if mostDecimals < places then .error .overflow
  else if !(whole ++ decimals).all Char.isDigit then .error bad
  else ofQuotient (Decimal.digitsValue (whole ++ decimals)) (Nat.pow 10 places)

end Fraction

end PuzzlePlayback.Calculator
