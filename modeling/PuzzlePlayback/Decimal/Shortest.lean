import PuzzlePlayback.Decimal.Binary

/-!
# The fewest digits that identify a double

A decimal identifies a double when it lies in the interval of numbers that round to it, the ends
included iff the significand is even. `shortest` tries one digit, two digits and so on: of the
decimals with that many digits only the two neighbours of the value can be the closest ones in
the interval, so they are tested in exact arithmetic and the closer one wins. A tie between the
two is the writer's decision.
-/

namespace PuzzlePlayback.Decimal

/-- A positive decimal `digits * 10 ^ exponent`. -/
structure Digits where
  digits : Nat
  exponent : Int
deriving DecidableEq

/-- Which of two equally close decimals is written. -/
inductive Tie
  | up
  | even
deriving DecidableEq

/-- The value of a double and the ends of its rounding interval, as quotients over one
denominator. -/
structure Interval where
  low : Nat
  value : Nat
  high : Nat
  den : Nat
  closed : Bool

/-- The rounding interval of `significand * 2 ^ exponent`. Below a power of two the neighbours are
closer by half. -/
def Interval.ofBinary (significand : Nat) (exponent : Int) : Interval :=
  let (p, q) := powerOfTwo (exponent - 2)
  let below := if significand = leastNormal ∧ leastExponent < exponent then 1 else 2
  { low := (4 * significand - below) * p
    value := 4 * significand * p
    high := (4 * significand + 2) * p
    den := q
    closed := significand % 2 = 0 }

/-- Does `n / scale` lie in the interval? -/
def Interval.contains (i : Interval) (n scale : Nat) : Bool :=
  if i.closed then i.low * scale ≤ n * i.den && n * i.den ≤ i.high * scale
  else i.low * scale < n * i.den && n * i.den < i.high * scale

/-- The powers `10 ^ e` and `10 ^ -e` as a quotient of naturals. -/
def powerOfTen (e : Int) : Nat × Nat :=
  if 0 ≤ e then (Nat.pow 10 e.toNat, 1) else (1, Nat.pow 10 (-e).toNat)

/-- The decimal in the interval that is a multiple of `10 ^ exponent` and closest to the value. -/
def Interval.onGrid (i : Interval) (tie : Tie) (exponent : Int) : Option Nat :=
  let (p, q) := powerOfTen exponent
  let down := i.value * q / (i.den * p)
  let twice := 2 * (i.value * q % (i.den * p))
  let downFits := i.contains (down * p) q
  let upFits := i.contains ((down + 1) * p) q
  let upCloser := i.den * p < twice ||
    (twice == i.den * p && (tie == .up || down % 2 == 1))
  if upFits && (!downFits || upCloser) then some (down + 1)
  else if downFits then some down
  else none

/-- The exponent of the greatest power of ten up to `num / den`, searched down from an upper
bound. -/
def floorLog10 (num den : Nat) : Int :=
  let rec search (e : Int) : Nat → Int
    | 0 => e
    | fuel + 1 =>
      let (p, q) := powerOfTen e
      if den * p ≤ num * q then e else search (e - 1) fuel
  let bound := (floorLog2 num den + 1) * 30103 / 100000 + 1
  search bound 4

/-- Try grids from coarse to fine. -/
def Interval.search (i : Interval) (tie : Tie) (exponent : Int) : Nat → Digits
  | 0 => ⟨i.value / i.den, 0⟩
  | fuel + 1 =>
    match i.onGrid tie exponent with
    | some digits => ⟨digits, exponent⟩
    | none => i.search tie (exponent - 1) fuel

/-- Move trailing zeros into the exponent. -/
def Digits.strip (d : Digits) : Digits :=
  let rec go (digits : Nat) (exponent : Int) : Nat → Digits
    | 0 => ⟨digits, exponent⟩
    | fuel + 1 =>
      if digits ≠ 0 ∧ digits % 10 = 0 then go (digits / 10) (exponent + 1) fuel
      else ⟨digits, exponent⟩
  go d.digits d.exponent 20

/-- The shortest decimal that identifies the double `significand * 2 ^ exponent`, which is not
zero. Seventeen digits always suffice. -/
def shortest (tie : Tie) (significand : Nat) (exponent : Int) : Digits :=
  let interval := Interval.ofBinary significand exponent
  (interval.search tie (floorLog10 interval.value interval.den) 18).strip

end PuzzlePlayback.Decimal
