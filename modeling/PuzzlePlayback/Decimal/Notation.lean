import PuzzlePlayback.Decimal.Shortest

/-!
# Writing doubles

Which digits to write and how to lay them out are separate decisions. `Layout` records the second:
how far positional notation reaches, whether a whole number keeps a `.0`, and which of two
equally close digit strings is taken. `fixed` writes a set number of decimals instead.
-/

namespace PuzzlePlayback.Decimal

/-- How the shortest digits of a double are laid out. -/
structure Layout where
  /-- Of two equally close decimals, the one to write. -/
  tie : Tie
  /-- Positional notation is used when the point stands after at most this many digits; `none`
  is without limit. -/
  maxWhole : Option Nat
  /-- Positional notation is used when at most this many zeros follow the point; `none` is
  without limit. -/
  maxZeros : Option Nat
  /-- Does a whole number end in `.0`? -/
  pointZero : Bool

/-- `n` zeros. -/
def zeros (n : Nat) : String := String.ofList (List.replicate n '0')

/-- Digits with the point after the first `whole` of them, which may lie outside the digits. -/
def positional (digits : String) (whole : Int) (pointZero : Bool) : String :=
  let size : Int := digits.length
  if whole ≤ 0 then "0." ++ zeros (-whole).toNat ++ digits
  else if size ≤ whole then
    digits ++ zeros (whole - size).toNat ++ (if pointZero then ".0" else "")
  else (digits.take whole.toNat).toString ++ "." ++ (digits.drop whole.toNat).toString

/-- Digits with the point after the first one and a power of ten, whose exponent has a sign. -/
def exponential (digits : String) (exponent : Int) : String :=
  let tail := (digits.drop 1).toString
  (digits.take 1).toString ++ (if tail.isEmpty then "" else "." ++ tail) ++ "e" ++
    (if exponent < 0 then "" else "+") ++ toString exponent

/-- A limit that may be absent. -/
def within (n : Int) : Option Nat → Bool
  | none => true
  | some limit => n ≤ limit

/-- The text of a finite double. -/
def Layout.renderFinite (layout : Layout) (significand : Nat) (exponent : Int) : String :=
  if significand = 0 then if layout.pointZero then "0.0" else "0"
  else
    let d := shortest layout.tie significand exponent
    let digits := toString d.digits
    let whole : Int := digits.length + d.exponent
    if within whole layout.maxWhole && within (-whole) layout.maxZeros then
      positional digits whole layout.pointZero
    else exponential digits (whole - 1)

/-- The text of a double. -/
def Layout.render (layout : Layout) (x : Float) : String :=
  match Binary.ofFloat x with
  | .nan => "NaN"
  | .infinity negative => if negative then "-inf" else "inf"
  | .finite negative significand exponent =>
    (if negative then "-" else "") ++ layout.renderFinite significand exponent

/-- Plain text: always positional, whole numbers without a point, a tie away from zero. -/
def plain : Layout where
  tie := .up
  maxWhole := none
  maxZeros := none
  pointZero := false

/-- The exact value of a double with `places` decimals, a half going to the even neighbour. Zero
has no sign, whatever was rounded to it. -/
def fixed (places : Nat) (x : Float) : String :=
  match Binary.ofFloat x with
  | .nan => "NaN"
  | .infinity negative => if negative then "-inf" else "inf"
  | .finite negative significand exponent =>
    let (p, q) := powerOfTwo exponent
    let unit := Nat.pow 10 places
    let units := roundHalfEven (significand * p * unit) q
    let decimals := toString (units % unit)
    (if negative && units ≠ 0 then "-" else "") ++ toString (units / unit) ++ "." ++
      zeros (places - decimals.length) ++ decimals

end PuzzlePlayback.Decimal
