import PuzzlePlayback.Calculator.Fraction
import PuzzlePlayback.SortedMap

/-!
# Laurent polynomials in one variable

A polynomial is a sorted map from degrees to coefficients that stores no zero coefficient, so
equal polynomials are equal values. Degrees may be negative: a division by a power of the
variable stays a polynomial. Every operation adds one term at a time (`Laurent.addTerm`) in exact
arithmetic, and fails where a partial sum or a degree does not fit its word.
-/

namespace PuzzlePlayback.Calculator

/-- A sum of terms `coefficient * x ^ degree`, without zero coefficients. -/
structure Laurent where
  terms : SortedMap Int Fraction
  nonzero : ∀ t ∈ terms.entries, t.2.num ≠ 0
deriving DecidableEq

/-- Does a degree fit a signed 32-bit word? -/
def degreeFits (degree : Int) : Bool :=
  -2147483648 ≤ degree && degree ≤ 2147483647

namespace Laurent

@[ext]
theorem ext {p q : Laurent} (h : p.terms = q.terms) : p = q := by
  cases p; cases q; cases h; rfl

/-- The coefficient of a degree. -/
def coeff (p : Laurent) (degree : Int) : Fraction :=
  (p.terms.get? degree).getD .zero

/-! ## Building polynomials -/

def zero : Laurent := ⟨.empty, by simp [SortedMap.empty]⟩

/-- Make `coef` the coefficient of `degree`. -/
def put (p : Laurent) (degree : Int) (coef : Fraction) : Laurent :=
  if h : coef.num = 0 then
    ⟨p.terms.erase degree, fun t ht => p.nonzero t ((List.mem_filter.1 ht).1)⟩
  else
    ⟨p.terms.insert degree coef, fun t ht => by
      rcases SortedMap.mem_insertEntry ht with rfl | ht
      · exact h
      · exact p.nonzero t ht⟩

@[simp]
theorem coeff_zero (degree : Int) : zero.coeff degree = .zero := rfl

theorem coeff_put (p : Laurent) (degree other : Int) (coef : Fraction) :
    (p.put degree coef).coeff other = if other = degree then coef else p.coeff other := by
  unfold put coeff
  split
  · rename_i h
    rw [SortedMap.get?_erase, Fraction.eq_zero_of_num_eq_zero h]
    by_cases ho : other = degree <;> simp [ho]
  · rw [SortedMap.get?_insert]
    by_cases ho : other = degree <;> simp [ho]

/-- The polynomial of a single term. -/
def monomial (coef : Fraction) (degree : Int) : Laurent := zero.put degree coef

def constant (value : Fraction) : Laurent := monomial value 0

def one : Laurent := constant .one

/-- The variable itself. -/
def var : Laurent := monomial .one 1

/-! ## Shapes -/

/-- The value of a polynomial without the variable. -/
def constant? (p : Laurent) : Option Fraction :=
  match p.terms.entries with
  | [] => some .zero
  | [(degree, coef)] => if degree = 0 then some coef else none
  | _ => none

/-- Is this exactly the variable? -/
def isVar (p : Laurent) : Bool := p == var

/-! ## Arithmetic -/

/-- Add one term. -/
def addTerm (p : Laurent) (degree : Int) (coef : Fraction) : Except Failure Laurent :=
  match p.terms.get? degree with
  | some present => (present.add coef).map (p.put degree)
  | none => .ok (p.put degree coef)

/-- Add the terms of `q` from the lowest degree up. -/
def add (p q : Laurent) : Except Failure Laurent :=
  q.terms.entries.foldlM (fun sum t => sum.addTerm t.1 t.2) p

def neg (p : Laurent) : Laurent where
  terms := p.terms.mapValues Fraction.neg
  nonzero t ht := by
    obtain ⟨s, hs, rfl⟩ := List.mem_map.1 ht
    simpa [Fraction.neg] using p.nonzero s hs

theorem coeff_neg (p : Laurent) (degree : Int) : p.neg.coeff degree = (p.coeff degree).neg := by
  show ((p.terms.mapValues Fraction.neg).get? degree).getD .zero = _
  rw [SortedMap.get?_mapValues]
  unfold coeff
  cases p.terms.get? degree with
  | none => exact Fraction.ext (by decide) (by decide)
  | some coef => rfl

def sub (p q : Laurent) : Except Failure Laurent := p.add q.neg

/-- Add the product of two terms. -/
def addProduct (sum : Laurent) (s t : Int × Fraction) : Except Failure Laurent :=
  if degreeFits (s.1 + t.1) then do sum.addTerm (s.1 + t.1) (← s.2.mul t.2)
  else .error .exponentRange

/-- Sum the products of the terms, those of `p` outermost. -/
def mul (p q : Laurent) : Except Failure Laurent :=
  p.terms.entries.foldlM (fun sum s => q.terms.entries.foldlM (fun sum t => sum.addProduct s t) sum)
    zero

/-- Divide by a polynomial of a single term. -/
def div (p divisor : Laurent) : Except Failure Laurent :=
  match divisor.terms.entries with
  | [] => .error .divisionByZero
  | [(degree, coef)] => do
    let inverse ← Fraction.one.div coef
    if degreeFits (-degree) then p.mul (monomial inverse (-degree)) else .error .exponentRange
  | _ => .error .compoundDivisor

/-- Multiply `product` by `n` copies of `p`, one at a time. -/
def mulRepeated (p : Laurent) : Nat → Laurent → Except Failure Laurent
  | 0, product => .ok product
  | n + 1, product => do mulRepeated p n (← product.mul p)

/-- The largest magnitude of an exponent. -/
def exponentLimit : Nat := 16

/-- A power with a whole exponent; a negative one takes the power of the reciprocal. -/
def pow (p : Laurent) (exponent : Int) : Except Failure Laurent :=
  if exponentLimit < exponent.natAbs then .error .exponentRange
  else do
    let base ← if exponent < 0 then one.div p else pure p
    base.mulRepeated exponent.natAbs one

/-- The power whose exponent is a signed 64-bit word. Its magnitude has to be such a word too, and
that of the least word is none: then there is no answer, not even an error. -/
def pow? (p : Laurent) (exponent : Int64) : Option (Except Failure Laurent) :=
  if exponent = .minValue then none else some (p.pow exponent.toInt)

/-- The value of one term at `x`. -/
def evalTerm (x : Fraction) (degree : Int) (coef : Fraction) : Except Failure Fraction := do
  let power ← x.mulRepeated degree.natAbs .one
  let power ← if degree < 0 then Fraction.one.div power else pure power
  coef.mul power

/-- The value at `x`, summed from the lowest degree up. -/
def eval (p : Laurent) (x : Fraction) : Except Failure Fraction :=
  p.terms.entries.foldlM (fun total t => do total.add (← evalTerm x t.1 t.2)) .zero

/-! ## Canonical text -/

/-- A term without its sign. A coefficient of one is left out, a broken one stands in
parentheses, and `implicit` leaves out the multiplication sign. -/
def renderTerm (x : String) (implicit : Bool) (degree : Int) (magnitude : Fraction) : String :=
  if degree = 0 then magnitude.render
  else
    let coef :=
      if magnitude = .one then ""
      else (if magnitude.isInteger then magnitude.render else "(" ++ magnitude.render ++ ")") ++
        (if implicit then "" else "*")
    coef ++ x ++ (if degree = 1 then "" else "^" ++ toString degree)

/-- The text of a polynomial in the variable `x`, highest degree first: `2x^2 - x + 3/4`, or with
`implicit` off `2*x^2 - x + 3/4`. -/
def render (p : Laurent) (x : String) (implicit : Bool) : String :=
  match p.terms.entries.reverse with
  | [] => "0"
  | (degree, coef) :: rest =>
    (if coef.isNegative then "-" else "") ++ renderTerm x implicit degree coef.abs ++
      String.join (rest.map fun t =>
        (if t.2.isNegative then " - " else " + ") ++ renderTerm x implicit t.1 t.2.abs)

end Laurent

end PuzzlePlayback.Calculator
