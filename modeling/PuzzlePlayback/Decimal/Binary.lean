/-!
# Doubles as exact binary numbers

A finite double is a sign, a whole significand and a power of two. `Binary.ofFloat` reads these
parts off, and `nearest` goes the other way: it rounds an exact quotient of naturals to the
closest double, a tie going to the even significand.
-/

namespace PuzzlePlayback.Decimal

/-- A double taken apart: `significand * 2 ^ exponent`, or one of the special values. -/
inductive Binary
  | nan
  | infinity (negative : Bool)
  | finite (negative : Bool) (significand : Nat) (exponent : Int)
deriving DecidableEq

/-- The significand of a number in the lowest binade of its exponent, `2 ^ 52`. -/
def leastNormal : Nat := Nat.pow 2 52

/-- The exponent of the smallest doubles. -/
def leastExponent : Int := -1074

/-- Take a double apart. -/
def Binary.ofFloat (x : Float) : Binary :=
  let bits : Nat := x.toBits.toNat
  let negative := bits / Nat.pow 2 63 == 1
  let biased : Nat := bits / Nat.pow 2 52 % Nat.pow 2 11
  let fraction : Nat := bits % Nat.pow 2 52
  if biased = 2047 then if fraction = 0 then .infinity negative else .nan
  else if biased = 0 then .finite negative fraction leastExponent
  else .finite negative (leastNormal + fraction) ((biased : Int) - 1 + leastExponent)

/-- `num / den` rounded to a whole number, a half to the even neighbour. -/
def roundHalfEven (num den : Nat) : Nat :=
  let q := num / den
  let twice := 2 * (num % den)
  if twice < den then q
  else if den < twice then q + 1
  else if q % 2 = 0 then q else q + 1

/-- The powers `2 ^ e` and `2 ^ -e` as a quotient of naturals. -/
def powerOfTwo (e : Int) : Nat × Nat :=
  if 0 ≤ e then (Nat.pow 2 e.toNat, 1) else (1, Nat.pow 2 (-e).toNat)

/-- The exponent of the greatest power of two up to `num / den`, for positive `num` and `den`. -/
def floorLog2 (num den : Nat) : Int :=
  let guess : Int := (num.log2 : Int) - den.log2
  let (p, q) := powerOfTwo guess
  if num * q < den * p then guess - 1 else guess

/-- The bits of infinity. -/
def infinityBits : Nat := 2047 * Nat.pow 2 52

/-- The least whole number that is not below a double, cut to a word. It is zero for every number
below zero, and where there is no number. -/
def Binary.ceilWord : Binary → UInt32
  | .nan => 0
  | .infinity negative => if negative then 0 else .ofNat (UInt32.size - 1)
  | .finite negative significand exponent =>
    let (p, q) := powerOfTwo exponent
    if negative then 0 else .ofNat (min ((significand * p + (q - 1)) / q) (UInt32.size - 1))

/-- The double closest to `num / den`, infinity beyond the largest one. -/
def nearest (num den : Nat) : Float :=
  if num = 0 then 0
  else
    let exponent := max leastExponent (floorLog2 num den - 52)
    let (p, q) := powerOfTwo exponent
    let significand := roundHalfEven (num * q) (den * p)
    let bits := (exponent - leastExponent).toNat * Nat.pow 2 52 + significand
    Float.ofBits (UInt64.ofNat (min bits infinityBits))

/-- The double closest to `n`. -/
def nearestNat (n : Nat) : Float := nearest n 1

end PuzzlePlayback.Decimal
