import PuzzlePlayback.Calculator.Laurent
import PuzzlePlayback.Calculator.Token

/-!
# Reading expressions

The grammar of an expression in one variable, each level reading what binds tighter:

    sum     := product (('+' | '-') product)*
    product := signed (('*' | '/') signed | signed that starts with a name or '(')*
    signed  := ('+' | '-') signed | power
    power   := atom ('^' '-'? whole number)?
    atom    := number | variable | '(' sum ')'

Reading and computing go together from left to right, so of several faults the leftmost one is
reported. A reader returns the polynomial and the tokens it left, which are fewer than it was
given; that is why reading ends.
-/

namespace PuzzlePlayback.Calculator

namespace Expression

/-- What a reader gives: a polynomial, and fewer than `n` tokens left to read. -/
abbrev Reading (n : Nat) := Except Failure (Laurent × { rest : List Token // rest.length < n })

/-- The exponent after a power sign: a whole number with an optional minus. -/
def exponent (ts : List Token) :
    Except Failure (Int × { rest : List Token // rest.length < ts.length }) :=
  match ts with
  | .number q :: rest =>
    if q.isInteger then .ok (q.num, ⟨rest, Nat.lt_succ_self _⟩)
    else .error (.malformed "exponent must be an integer")
  | .minus :: .number q :: rest =>
    if q.isInteger then .ok (-q.num, ⟨rest, Nat.lt_succ_of_lt (Nat.lt_succ_self _)⟩)
    else .error (.malformed "exponent must be an integer")
  | _ => .error (.malformed "exponent must be an integer")

mutual

/-- Read a sum. -/
def sum (x : String) (ts : List Token) : Reading ts.length := do
  let (value, ⟨rest, hrest⟩) ← product x ts
  sumTail x ts.length value rest hrest
termination_by (ts.length, 6)

/-- Read the further summands after `value`. -/
def sumTail (x : String) (n : Nat) (value : Laurent) (ts : List Token) (h : ts.length < n) :
    Reading n :=
  match ts with
  | .plus :: ts => do
    let (summand, ⟨rest, hrest⟩) ← product x ts
    let value ← value.add summand
    sumTail x n value rest (Nat.lt_trans hrest (Nat.lt_of_succ_lt h))
  | .minus :: ts => do
    let (summand, ⟨rest, hrest⟩) ← product x ts
    let value ← value.sub summand
    sumTail x n value rest (Nat.lt_trans hrest (Nat.lt_of_succ_lt h))
  | ts => .ok (value, ⟨ts, h⟩)
termination_by (ts.length, 5)

/-- Read a product. -/
def product (x : String) (ts : List Token) : Reading ts.length := do
  let (value, ⟨rest, hrest⟩) ← signed x ts
  productTail x ts.length value rest hrest
termination_by (ts.length, 4)

/-- Read the further factors after `value`; a name or a parenthesis multiplies without a sign. -/
def productTail (x : String) (n : Nat) (value : Laurent) (ts : List Token) (h : ts.length < n) :
    Reading n :=
  match ts with
  | .times :: ts => do
    let (factor, ⟨rest, hrest⟩) ← signed x ts
    let value ← value.mul factor
    productTail x n value rest (Nat.lt_trans hrest (Nat.lt_of_succ_lt h))
  | .over :: ts => do
    let (factor, ⟨rest, hrest⟩) ← signed x ts
    let value ← value.div factor
    productTail x n value rest (Nat.lt_trans hrest (Nat.lt_of_succ_lt h))
  | .name text :: ts => do
    let (factor, ⟨rest, hrest⟩) ← signed x (.name text :: ts)
    let value ← value.mul factor
    productTail x n value rest (Nat.lt_trans hrest h)
  | .leftParen :: ts => do
    let (factor, ⟨rest, hrest⟩) ← signed x (.leftParen :: ts)
    let value ← value.mul factor
    productTail x n value rest (Nat.lt_trans hrest h)
  | ts => .ok (value, ⟨ts, h⟩)
termination_by (ts.length, 3)

/-- Read a power with any number of signs before it. -/
def signed (x : String) (ts : List Token) : Reading ts.length :=
  match ts with
  | .minus :: ts => do
    let (value, ⟨rest, hrest⟩) ← signed x ts
    return (value.neg, ⟨rest, Nat.lt_succ_of_lt hrest⟩)
  | .plus :: ts => do
    let (value, ⟨rest, hrest⟩) ← signed x ts
    return (value, ⟨rest, Nat.lt_succ_of_lt hrest⟩)
  | ts => power x ts
termination_by (ts.length, 2)

/-- Read an atom with an optional exponent. -/
def power (x : String) (ts : List Token) : Reading ts.length := do
  let (base, rest) ← atom x ts
  match rest with
  | ⟨.power :: ts', h⟩ =>
    let (n, rest) ← exponent ts'
    let value ← base.pow n
    return (value, ⟨rest.1, Nat.lt_trans rest.2 (Nat.lt_of_succ_lt h)⟩)
  | rest => return (base, rest)
termination_by (ts.length, 1)

/-- Read a number, the variable, or a sum in parentheses. -/
def atom (x : String) (ts : List Token) : Reading ts.length :=
  match ts with
  | .number q :: ts => .ok (.constant q, ⟨ts, Nat.lt_succ_self _⟩)
  | .name text :: ts =>
    if text = x then .ok (.var, ⟨ts, Nat.lt_succ_self _⟩) else .error (.unknownName text)
  | .leftParen :: ts => do
    let (value, rest) ← sum x ts
    match rest with
    | ⟨.rightParen :: rest, h⟩ => return (value, ⟨rest, Nat.lt_succ_of_lt (Nat.lt_of_succ_lt h)⟩)
    | _ => .error (.malformed "missing `)`")
  | token :: _ => .error (.malformed ("unexpected " ++ token.describe))
  | [] => .error (.malformed "unexpected end of expression")
termination_by (ts.length, 0)

end

end Expression

/-- The polynomial that a text denotes in the variable `x`. -/
def Laurent.ofText (text : String) (x : String) : Except Failure Laurent := do
  let tokens ← tokensOf text
  if tokens.isEmpty then throw (.malformed "empty expression")
  let (value, rest) ← Expression.sum x tokens
  match rest.1 with
  | [] => return value
  | token :: _ => throw (.malformed ("trailing " ++ token.describe))

/-- The canonical text of the polynomial that a text denotes. -/
def canonicalText (text : String) (x : String) (implicit : Bool) : Except Failure String :=
  (Laurent.ofText text x).map (·.render x implicit)

end PuzzlePlayback.Calculator
