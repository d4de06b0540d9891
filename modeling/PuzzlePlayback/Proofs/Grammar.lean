import Mathlib
import PuzzlePlayback.Calculator.Expression

/-!
# The grammar of expressions

`Derives` is the grammar that the reader of expressions follows, as rules: at which level a list
of tokens can be derived, and what the derivation comes to when it is computed from left to right.
Sums and products grow to the right, so their operators associate to the left.

The reader answers exactly as the derivations do (`ofText_eq_ok_iff_derives`). In the one direction,
whatever a reader took is derivable with the value it gave (`sound`). In the other, on what is
derived, with a rest that cannot go on with it, a reader takes just that and gives its value or its
failure (`Derives.read_append`). That is stated with whatever follows at the same level, because
a sum that is a part of a longer sum is not where the reader stops.
-/

namespace PuzzlePlayback.Calculator.Expression

/-! ## Derivations -/

/-- The levels of the grammar, each made of the next, which binds tighter. -/
inductive Level
  | sum
  | product
  | signed
  | power
  | atom

/-- A factor that starts so multiplies without a sign. -/
def StartsFactor : List Token → Prop
  | .name _ :: _ | .leftParen :: _ => True
  | _ => False

theorem StartsFactor.eq {ts : List Token} (h : StartsFactor ts) :
    ∃ rest, (∃ text, ts = .name text :: rest) ∨ ts = .leftParen :: rest := by
  cases ts with
  | nil => exact h.elim
  | cons t rest =>
    cases t with
    | name text => exact ⟨rest, .inl ⟨text, rfl⟩⟩
    | leftParen => exact ⟨rest, .inr rfl⟩
    | _ => exact h.elim

/-- Compute two operands, the left one first, and combine them. -/
def combine (operation : Laurent → Laurent → Except Failure Laurent)
    (left right : Except Failure Laurent) : Except Failure Laurent :=
  left.bind fun a => right.bind fun b => operation a b

/-- `Derives x level ts value`: in the variable `x` the tokens have a derivation of this level,
and `value` is what it comes to. -/
inductive Derives (x : String) : Level → List Token → Except Failure Laurent → Prop
  | number (q : Fraction) : Derives x .atom [.number q] (.ok (.constant q))
  | unknown : Derives x .atom [.name x] (.ok .var)
  | parens {ts : List Token} {v : Except Failure Laurent} :
      Derives x .sum ts v → Derives x .atom (.leftParen :: (ts ++ [.rightParen])) v
  | base {ts : List Token} {v : Except Failure Laurent} :
      Derives x .atom ts v → Derives x .power ts v
  | raised {ts : List Token} {v : Except Failure Laurent} {q : Fraction} :
      Derives x .atom ts v → q.isInteger = true →
      Derives x .power (ts ++ [.power, .number q]) (v.bind (·.pow q.num))
  | lowered {ts : List Token} {v : Except Failure Laurent} {q : Fraction} :
      Derives x .atom ts v → q.isInteger = true →
      Derives x .power (ts ++ [.power, .minus, .number q]) (v.bind (·.pow (-q.num)))
  | unsigned {ts : List Token} {v : Except Failure Laurent} :
      Derives x .power ts v → Derives x .signed ts v
  | opposite {ts : List Token} {v : Except Failure Laurent} :
      Derives x .signed ts v → Derives x .signed (.minus :: ts) (v.map Laurent.neg)
  | same {ts : List Token} {v : Except Failure Laurent} :
      Derives x .signed ts v → Derives x .signed (.plus :: ts) v
  | factor {ts : List Token} {v : Except Failure Laurent} :
      Derives x .signed ts v → Derives x .product ts v
  | times {ts us : List Token} {v w : Except Failure Laurent} :
      Derives x .product ts v → Derives x .signed us w →
      Derives x .product (ts ++ .times :: us) (combine Laurent.mul v w)
  | quotient {ts us : List Token} {v w : Except Failure Laurent} :
      Derives x .product ts v → Derives x .signed us w →
      Derives x .product (ts ++ .over :: us) (combine Laurent.div v w)
  | juxtaposed {ts us : List Token} {v w : Except Failure Laurent} :
      Derives x .product ts v → Derives x .signed us w → StartsFactor us →
      Derives x .product (ts ++ us) (combine Laurent.mul v w)
  | summand {ts : List Token} {v : Except Failure Laurent} :
      Derives x .product ts v → Derives x .sum ts v
  | plus {ts us : List Token} {v w : Except Failure Laurent} :
      Derives x .sum ts v → Derives x .product us w →
      Derives x .sum (ts ++ .plus :: us) (combine Laurent.add v w)
  | minus {ts us : List Token} {v w : Except Failure Laurent} :
      Derives x .sum ts v → Derives x .product us w →
      Derives x .sum (ts ++ .minus :: us) (combine Laurent.sub v w)

/-! ## The readers as plain functions

The bound on the rest that a reader carries with it is for its termination only. Without it the
readers are functions of the tokens, and go on independently of where they started. -/

/-- A value and the tokens left. -/
abbrev Answer := Except Failure (Laurent × List Token)

/-- What a reader gave, without the bound on the rest. -/
def plain {n : Nat} (reading : Reading n) : Answer := reading.map fun a => (a.1, a.2.1)

/-- Read at a level. -/
def read (x : String) : Level → List Token → Answer
  | .sum, ts => plain (sum x ts)
  | .product, ts => plain (product x ts)
  | .signed, ts => plain (signed x ts)
  | .power, ts => plain (power x ts)
  | .atom, ts => plain (atom x ts)

/-- An optional exponent after a base. -/
def raise (base : Laurent) : List Token → Answer
  | .power :: ts => do
    let (n, rest) ← exponent ts
    return (← base.pow n, rest.1)
  | ts => .ok (base, ts)

theorem length_lt_succ (ts : List Token) : ts.length < ts.length + 1 := Nat.lt_succ_self _

/-- Go on at a level after a value of the next level, as sums, products and powers do. -/
def resume (x : String) : Level → Laurent → List Token → Answer
  | .sum, value, ts => plain (sumTail x (ts.length + 1) value ts (length_lt_succ ts))
  | .product, value, ts => plain (productTail x (ts.length + 1) value ts (length_lt_succ ts))
  | .power, value, ts => raise value ts
  | .signed, value, ts | .atom, value, ts => .ok (value, ts)

theorem plain_bind {α : Type} {n : Nat} (reading : Except Failure α) (next : α → Reading n) :
    plain (reading >>= next) = reading.bind fun a => plain (next a) := by
  cases reading <;> rfl

/-- A step of a tail of a sum or a product: read an operand, combine it, and go on. -/
theorem plain_step {n m : Nat} {operand : Reading m}
    {operation : Laurent → Except Failure Laurent}
    {next : (value : Laurent) → (ts : List Token) → ts.length < m → Reading n}
    {after : Laurent → List Token → Answer}
    (hnext : ∀ value ts h, plain (next value ts h) = after value ts) :
    plain (do
      let (factor, ⟨rest, hrest⟩) ← operand
      let value ← operation factor
      next value rest hrest) =
      (plain operand).bind fun a => (operation a.1).bind fun value => after value a.2 := by
  cases operand with
  | error e => rfl
  | ok a =>
    obtain ⟨factor, rest, hrest⟩ := a
    show plain (operation factor >>= fun value => next value rest hrest) = _
    rw [plain_bind]
    simp only [hnext]
    rfl

/-- The token goes on with what was read at the level. -/
def goesOn : Level → Token → Bool
  | .sum, .plus | .sum, .minus => true
  | .product, .times | .product, .over | .product, .name _ | .product, .leftParen => true
  | .power, .power => true
  | _, _ => false

/-- What follows does not go on at this level. -/
def Stops (level : Level) (ts : List Token) : Prop := ∀ t ∈ ts.head?, goesOn level t = false

theorem sumTail_of_stops {x : String} {n : Nat} {value : Laurent} {ts : List Token}
    (h : ts.length < n) (hstops : Stops .sum ts) :
    sumTail x n value ts h = .ok (value, ⟨ts, h⟩) := by
  unfold sumTail
  split
  · simp [Stops, goesOn] at hstops
  · simp [Stops, goesOn] at hstops
  · rfl

theorem productTail_of_stops {x : String} {n : Nat} {value : Laurent} {ts : List Token}
    (h : ts.length < n) (hstops : Stops .product ts) :
    productTail x n value ts h = .ok (value, ⟨ts, h⟩) := by
  unfold productTail
  split
  · simp [Stops, goesOn] at hstops
  · simp [Stops, goesOn] at hstops
  · simp [Stops, goesOn] at hstops
  · simp [Stops, goesOn] at hstops
  · rfl

theorem stops_sum_or (ts : List Token) :
    Stops .sum ts ∨ ∃ rest, ts = .plus :: rest ∨ ts = .minus :: rest := by
  cases ts with
  | nil => exact .inl nofun
  | cons t rest => cases t <;> simp [Stops, goesOn]

theorem stops_product_or (ts : List Token) :
    Stops .product ts ∨ (∃ rest, ts = .times :: rest ∨ ts = .over :: rest) ∨ StartsFactor ts := by
  cases ts with
  | nil => exact .inl nofun
  | cons t rest => cases t <;> simp [Stops, goesOn, StartsFactor]

/-- Going on with a sum does not depend on where it started. -/
theorem plain_sumTail (x : String) {n : Nat} (value : Laurent) (ts : List Token)
    (h : ts.length < n) : plain (sumTail x n value ts h) = resume x .sum value ts := by
  rcases stops_sum_or ts with hstops | ⟨rest, rfl | rfl⟩
  · rw [resume, sumTail_of_stops _ hstops, sumTail_of_stops _ hstops]
    rfl
  · rw [resume, sumTail, sumTail, plain_step fun w us _ => plain_sumTail x w us _,
      plain_step fun w us _ => plain_sumTail x w us _]
  · rw [resume, sumTail, sumTail, plain_step fun w us _ => plain_sumTail x w us _,
      plain_step fun w us _ => plain_sumTail x w us _]
termination_by ts.length
decreasing_by all_goals
  subst_vars
  exact Nat.lt_succ_of_lt ‹_›

/-- Going on with a product does not depend on where it started. -/
theorem plain_productTail (x : String) {n : Nat} (value : Laurent) (ts : List Token)
    (h : ts.length < n) : plain (productTail x n value ts h) = resume x .product value ts := by
  rcases stops_product_or ts with hstops | ⟨rest, rfl | rfl⟩ | hstarts
  · rw [resume, productTail_of_stops _ hstops, productTail_of_stops _ hstops]
    rfl
  · rw [resume, productTail, productTail, plain_step fun w us _ => plain_productTail x w us _,
      plain_step fun w us _ => plain_productTail x w us _]
  · rw [resume, productTail, productTail, plain_step fun w us _ => plain_productTail x w us _,
      plain_step fun w us _ => plain_productTail x w us _]
  · obtain ⟨rest, ⟨text, rfl⟩ | rfl⟩ := hstarts.eq
    · rw [resume, productTail, productTail, plain_step fun w us _ => plain_productTail x w us _,
        plain_step fun w us _ => plain_productTail x w us _]
    · rw [resume, productTail, productTail, plain_step fun w us _ => plain_productTail x w us _,
        plain_step fun w us _ => plain_productTail x w us _]
termination_by ts.length
-- A factor without a sign has no mark before it, so the rest is already shorter.
decreasing_by all_goals
  subst_vars
  first | exact Nat.lt_succ_of_lt ‹_› | assumption

/-! ## Equations of the readers -/

/-- Read an operand, combine it with the value, and go on. -/
def goOn (x : String) (level : Level) (operation : Laurent → Laurent → Except Failure Laurent)
    (value : Laurent) (operand : Answer) : Answer :=
  operand.bind fun a => (operation value a.1).bind fun next => resume x level next a.2

theorem resume_of_stops {x : String} {level : Level} {value : Laurent} {ts : List Token}
    (h : Stops level ts) : resume x level value ts = .ok (value, ts) := by
  cases level with
  | sum => rw [resume, sumTail_of_stops _ h]; rfl
  | product => rw [resume, productTail_of_stops _ h]; rfl
  | power =>
    rw [resume]
    unfold raise
    split
    · simp [Stops, goesOn] at h
    · rfl
  | _ => rfl

theorem resume_sum_plus (x : String) (value : Laurent) (ts : List Token) :
    resume x .sum value (.plus :: ts) =
      goOn x .sum Laurent.add value (read x .product ts) := by
  rw [resume, sumTail, plain_step fun w us _ => plain_sumTail x w us _]
  rfl

theorem resume_sum_minus (x : String) (value : Laurent) (ts : List Token) :
    resume x .sum value (.minus :: ts) =
      goOn x .sum Laurent.sub value (read x .product ts) := by
  rw [resume, sumTail, plain_step fun w us _ => plain_sumTail x w us _]
  rfl

theorem resume_product_times (x : String) (value : Laurent) (ts : List Token) :
    resume x .product value (.times :: ts) =
      goOn x .product Laurent.mul value (read x .signed ts) := by
  rw [resume, productTail, plain_step fun w us _ => plain_productTail x w us _]
  rfl

theorem resume_product_over (x : String) (value : Laurent) (ts : List Token) :
    resume x .product value (.over :: ts) =
      goOn x .product Laurent.div value (read x .signed ts) := by
  rw [resume, productTail, plain_step fun w us _ => plain_productTail x w us _]
  rfl

theorem resume_product_factor (x : String) (value : Laurent) {ts : List Token}
    (h : StartsFactor ts) : resume x .product value ts =
      goOn x .product Laurent.mul value (read x .signed ts) := by
  obtain ⟨rest, ⟨text, rfl⟩ | rfl⟩ := h.eq
  · rw [resume, productTail, plain_step fun w us _ => plain_productTail x w us _]
    rfl
  · rw [resume, productTail, plain_step fun w us _ => plain_productTail x w us _]
    rfl

theorem read_sum (x : String) (ts : List Token) :
    read x .sum ts = (read x .product ts).bind fun a => resume x .sum a.1 a.2 := by
  rw [read, sum, plain_bind, read]
  cases product x ts with
  | error e => rfl
  | ok a => exact plain_sumTail x a.1 a.2.1 _

theorem read_product (x : String) (ts : List Token) :
    read x .product ts = (read x .signed ts).bind fun a => resume x .product a.1 a.2 := by
  rw [read, product, plain_bind, read]
  cases signed x ts with
  | error e => rfl
  | ok a => exact plain_productTail x a.1 a.2.1 _

theorem read_signed_minus (x : String) (ts : List Token) :
    read x .signed (.minus :: ts) =
      (read x .signed ts).map fun a => (a.1.neg, a.2) := by
  rw [read, signed, read]
  cases signed x ts <;> rfl

theorem read_signed_plus (x : String) (ts : List Token) :
    read x .signed (.plus :: ts) = read x .signed ts := by
  rw [read, signed, read]
  cases signed x ts <;> rfl

/-- Without a sign in front a power is read. -/
theorem read_signed (x : String) {ts : List Token} (h : Stops .sum ts) :
    read x .signed ts = read x .power ts := by
  rw [read, signed.eq_def]
  split
  · simp [Stops, goesOn] at h
  · simp [Stops, goesOn] at h
  · rfl

theorem read_power (x : String) (ts : List Token) :
    read x .power ts = (read x .atom ts).bind fun a => resume x .power a.1 a.2 := by
  rw [read, power, plain_bind, read]
  cases atom x ts with
  | error e => rfl
  | ok a =>
    obtain ⟨base, rest, hrest⟩ := a
    cases rest with
    | nil => rfl
    | cons t us =>
      cases t with
      | power =>
        show plain (exponent us >>= _) = raise base (.power :: us)
        rw [raise]
        cases exponent us with
        | error e => rfl
        | ok n =>
          show plain (base.pow n.1 >>= _) = (base.pow n.1 >>= _)
          cases base.pow n.1 <;> rfl
      | _ => rfl

theorem raise_number (base : Laurent) {q : Fraction} (h : q.isInteger = true)
    (rest : List Token) : raise base (.power :: .number q :: rest) =
      (base.pow q.num).map (·, rest) := by
  rw [raise, exponent, if_pos h]
  show (base.pow q.num >>= _) = _
  cases base.pow q.num <;> rfl

theorem raise_minus_number (base : Laurent) {q : Fraction} (h : q.isInteger = true)
    (rest : List Token) : raise base (.power :: .minus :: .number q :: rest) =
      (base.pow (-q.num)).map (·, rest) := by
  rw [raise, exponent, if_pos h]
  show (base.pow (-q.num) >>= _) = _
  cases base.pow (-q.num) <;> rfl

theorem read_atom_number (x : String) (q : Fraction) (ts : List Token) :
    read x .atom (.number q :: ts) = .ok (.constant q, ts) := by
  rw [read, atom]
  rfl

theorem read_atom_unknown (x : String) (ts : List Token) :
    read x .atom (.name x :: ts) = .ok (.var, ts) := by
  rw [read, atom, if_pos rfl]
  rfl

/-- What stands before a closing parenthesis. -/
def close : Laurent × List Token → Answer
  | (value, .rightParen :: rest) => .ok (value, rest)
  | _ => .error (.malformed "missing `)`")

theorem read_atom_parens (x : String) (ts : List Token) :
    read x .atom (.leftParen :: ts) = (read x .sum ts).bind close := by
  show plain (atom x (.leftParen :: ts)) = (plain (sum x ts)).bind close
  rw [atom, plain_bind]
  cases sum x ts with
  | error e => rfl
  | ok a =>
    obtain ⟨value, rest, hrest⟩ := a
    cases rest with
    | nil => rfl
    | cons t rest => cases t <;> rfl

/-- A reader takes at least one token. -/
theorem length_lt_of_read {x : String} {level : Level} {ts rest : List Token} {value : Laurent}
    (h : read x level ts = .ok (value, rest)) : rest.length < ts.length := by
  have hplain {reading : Reading ts.length} (h : plain reading = .ok (value, rest)) :
      rest.length < ts.length := by
    cases reading with
    | error e => cases h
    | ok a =>
      cases h
      exact a.2.2
  cases level <;> exact hplain h

/-! ## What is derived is read -/

/-- What follows does not go on with anything that ends at this level. -/
def Ends : Level → List Token → Prop
  | .atom, _ => True
  | .power, ts | .signed, ts | .product, ts => Stops .power ts
  | .sum, ts => Stops .power ts ∧ Stops .product ts

/-- A factor that follows does not go on with a power. -/
theorem StartsFactor.stops_power {ts : List Token} (h : StartsFactor ts) (rest : List Token) :
    StartsFactor (ts ++ rest) ∧ Stops .power (ts ++ rest) ∧ Stops .sum (ts ++ rest) := by
  obtain ⟨us, ⟨text, rfl⟩ | rfl⟩ := h.eq <;> simp [StartsFactor, Stops, goesOn]

theorem StartsFactor.of_head {ts us : List Token} (h : StartsFactor ts)
    (hfirst : us.head? = ts.head?) : StartsFactor us := by
  cases us with
  | nil => cases ts <;> simp_all [StartsFactor]
  | cons u us =>
    cases ts with
    | nil => exact h.elim
    | cons t ts =>
      obtain rfl : u = t := by simpa using hfirst
      cases u <;> exact h

/-- What is derived from powers on starts with no sign. -/
theorem Derives.stops_sum {x : String} {level : Level} {ts : List Token}
    {v : Except Failure Laurent} (h : Derives x level ts v)
    (hlevel : level = .atom ∨ level = .power) (rest : List Token) : Stops .sum (ts ++ rest) := by
  induction h generalizing rest with
  | number q => simp [Stops, goesOn]
  | unknown => simp [Stops, goesOn]
  | parens _ _ => simp [Stops, goesOn]
  | base _ ih => exact ih (.inl rfl) rest
  | raised _ _ ih =>
    rw [List.append_assoc]
    exact ih (.inl rfl) _
  | lowered _ _ ih =>
    rw [List.append_assoc]
    exact ih (.inl rfl) _
  | _ => simp at hlevel

theorem Derives.ne_nil {x : String} {level : Level} {ts : List Token}
    {v : Except Failure Laurent} (h : Derives x level ts v) : ts ≠ [] := by
  induction h with
  | base _ ih | unsigned _ ih | factor _ ih | summand _ ih => exact ih
  | juxtaposed _ _ _ ih _ => simp [ih]
  | _ => simp

/-- Where nothing goes on, a reader leaves the rest. -/
theorem bind_resume_of_stops {x : String} {level : Level} {rest : List Token}
    (h : Stops level rest) (v : Except Failure Laurent) :
    v.bind (resume x level · rest) = v.map (·, rest) := by
  cases v with
  | error e => rfl
  | ok value => exact resume_of_stops h

/-- Nothing goes on with signs. -/
theorem stops_signed (ts : List Token) : Stops .signed ts := fun t _ => by cases t <;> rfl

/-- Reading what goes on with the left operand is going on with both combined. -/
theorem bind_goOn {x : String} {level : Level}
    {operation : Laurent → Laurent → Except Failure Laurent} {v w : Except Failure Laurent}
    {rest : List Token} {operand : Answer} (h : operand = w.map (·, rest)) :
    (v.bind fun value => goOn x level operation value operand) =
      (combine operation v w).bind (resume x level · rest) := by
  subst h
  cases v with
  | error e => rfl
  | ok a => cases w <;> rfl

/-- **What is derived is read.** Before a rest that does not go on with it, a reader takes what is
derived, and then goes on with the rest at its level. -/
theorem Derives.read_append {x : String} {level : Level} {ts : List Token}
    {v : Except Failure Laurent} (h : Derives x level ts v) {rest : List Token}
    (hends : Ends level rest) : read x level (ts ++ rest) = v.bind (resume x level · rest) := by
  induction h generalizing rest with
  | number q => exact read_atom_number x q rest
  | unknown => exact read_atom_unknown x rest
  | @parens ts v _ ih =>
    show read x .atom (.leftParen :: (ts ++ [.rightParen] ++ rest)) = _
    have hclose : Ends .sum (.rightParen :: rest) := by simp [Ends, Stops, goesOn]
    rw [read_atom_parens, List.append_assoc, List.singleton_append, ih hclose, bind_assoc]
    cases v with
    | error e => rfl
    | ok value =>
      show (resume x .sum value (.rightParen :: rest)).bind close = _
      rw [resume_of_stops (by simp [Stops, goesOn])]
      rfl
  | @base ts v _ ih =>
    rw [read_power, ih trivial, bind_assoc]
    rfl
  | @raised ts v q _ hq ih =>
    rw [List.append_assoc, read_power, ih trivial, bind_assoc, bind_resume_of_stops hends]
    cases v with
    | error e => rfl
    | ok base => exact raise_number base hq rest
  | @lowered ts v q _ hq ih =>
    rw [List.append_assoc, read_power, ih trivial, bind_assoc, bind_resume_of_stops hends]
    cases v with
    | error e => rfl
    | ok base => exact raise_minus_number base hq rest
  | unsigned hpower ih =>
    rw [read_signed x (hpower.stops_sum (.inr rfl) rest), ih hends, bind_resume_of_stops hends]
    exact (bind_resume_of_stops (stops_signed rest) _).symm
  | @opposite ts v _ ih =>
    rw [List.cons_append, read_signed_minus, ih hends]
    cases v <;> rfl
  | same _ ih => rw [List.cons_append, read_signed_plus, ih hends]
  | factor _ ih =>
    rw [read_product, ih hends, bind_assoc]
    rfl
  | times _ _ ihv ihw =>
    rw [List.append_assoc, ihv (by simp [Ends, Stops, goesOn])]
    simp only [List.cons_append, resume_product_times]
    exact bind_goOn ((ihw hends).trans (bind_resume_of_stops (stops_signed _) _))
  | quotient _ _ ihv ihw =>
    rw [List.append_assoc, ihv (by simp [Ends, Stops, goesOn])]
    simp only [List.cons_append, resume_product_over]
    exact bind_goOn ((ihw hends).trans (bind_resume_of_stops (stops_signed _) _))
  | juxtaposed _ _ hstarts ihv ihw =>
    obtain ⟨hfactor, hpower, _⟩ := hstarts.stops_power rest
    rw [List.append_assoc, ihv hpower]
    simp only [resume_product_factor x _ hfactor]
    exact bind_goOn ((ihw hends).trans (bind_resume_of_stops (stops_signed _) _))
  | @summand ts v _ ih =>
    rw [read_sum, ih hends.1, bind_resume_of_stops hends.2]
    cases v <;> rfl
  | plus _ _ ihv ihw =>
    rw [List.append_assoc, ihv (by simp [Ends, Stops, goesOn])]
    simp only [List.cons_append, resume_sum_plus]
    exact bind_goOn ((ihw hends.1).trans (bind_resume_of_stops hends.2 _))
  | minus _ _ ihv ihw =>
    rw [List.append_assoc, ihv (by simp [Ends, Stops, goesOn])]
    simp only [List.cons_append, resume_sum_minus]
    exact bind_goOn ((ihw hends.1).trans (bind_resume_of_stops hends.2 _))

/-! ## What is read is derived -/

/-- What a reader of this level takes from these tokens is derived, with the value it gives. -/
def Sound (x : String) (level : Level) (ts : List Token) : Prop :=
  ∀ ⦃value : Laurent⦄ ⦃rest : List Token⦄, read x level ts = .ok (value, rest) →
    ∃ used, ts = used ++ rest ∧ Derives x level used (.ok value)

/-- What a level goes on with extends whatever was derived before. -/
def Extends (x : String) (level : Level) (ts : List Token) : Prop :=
  ∀ ⦃start value : Laurent⦄ ⦃rest : List Token⦄, resume x level start ts = .ok (value, rest) →
    ∃ used, ts = used ++ rest ∧
      ∀ {before}, Derives x level before (.ok start) → Derives x level (before ++ used) (.ok value)

/-- What stops extends by nothing. -/
theorem extends_of_stops {x : String} {level : Level} {ts : List Token} (h : Stops level ts) :
    Extends x level ts := by
  intro start value rest heq
  rw [resume_of_stops h] at heq
  cases heq
  exact ⟨[], rfl, fun hbefore => by rwa [List.append_nil]⟩

/-- One more operand extends, if it is derived and whatever comes after it extends. -/
theorem extends_goOn {x : String} {level next : Level} (mark : List Token) {ts : List Token}
    {operation : Laurent → Laurent → Except Failure Laurent}
    (heq : ∀ start, resume x level start (mark ++ ts) =
      goOn x level operation start (read x next ts))
    (hrule : ∀ {before us v w}, Derives x level before v → Derives x next us w →
      us.head? = ts.head? → Derives x level (before ++ (mark ++ us)) (combine operation v w))
    (hoperand : Sound x next ts)
    (hafter : ∀ rest, rest.length < ts.length → Extends x level rest) :
    Extends x level (mark ++ ts) := by
  intro start value rest hresume
  rw [heq] at hresume
  obtain ⟨⟨operand, left⟩, hread, hgo⟩ := bind_eq_ok hresume
  obtain ⟨combined, hcombined, hrest⟩ := bind_eq_ok hgo
  have hlt := length_lt_of_read hread
  obtain ⟨us, rfl, hus⟩ := hoperand hread
  obtain ⟨more, rfl, hmore⟩ := hafter left hlt hrest
  have hfirst : us.head? = (us ++ (more ++ rest)).head? := by
    cases us with
    | nil => exact absurd hlt (Nat.lt_irrefl _)
    | cons t us => rfl
  refine ⟨mark ++ us ++ more, by simp only [List.append_assoc], fun hbefore => ?_⟩
  have hcombine : combine operation (.ok start) (.ok operand) = .ok combined := hcombined
  rw [← List.append_assoc]
  exact hmore (hcombine ▸ hrule hbefore hus hfirst)

/-- Every reader is sound on fewer than `n` tokens. -/
def SoundBelow (x : String) (n : Nat) : Prop :=
  ∀ us : List Token, us.length < n → ∀ level, Sound x level us

theorem extends_sum {x : String} {n : Nat} (hbelow : SoundBelow x n) (ts : List Token)
    (h : ts.length ≤ n) : Extends x .sum ts := by
  rcases stops_sum_or ts with hstops | ⟨us, rfl | rfl⟩
  · exact extends_of_stops hstops
  · exact extends_goOn [.plus] (fun start => resume_sum_plus x start us)
      (fun hv hw _ => hv.plus hw) (hbelow us h .product)
      (fun rest hrest => extends_sum hbelow rest (by simp at h; omega))
  · exact extends_goOn [.minus] (fun start => resume_sum_minus x start us)
      (fun hv hw _ => hv.minus hw) (hbelow us h .product)
      (fun rest hrest => extends_sum hbelow rest (by simp at h; omega))
termination_by ts.length
decreasing_by all_goals
  subst_vars
  exact Nat.lt_succ_of_lt ‹_›

theorem extends_product {x : String} {n : Nat} (hbelow : SoundBelow x n) (ts : List Token)
    (h : ts.length < n) : Extends x .product ts := by
  rcases stops_product_or ts with hstops | ⟨us, rfl | rfl⟩ | hstarts
  · exact extends_of_stops hstops
  · exact extends_goOn [.times] (fun start => resume_product_times x start us)
      (fun hv hw _ => hv.times hw) (hbelow us (Nat.lt_of_succ_lt h) .signed)
      (fun rest hrest => extends_product hbelow rest (by simp at h; omega))
  · exact extends_goOn [.over] (fun start => resume_product_over x start us)
      (fun hv hw _ => hv.quotient hw) (hbelow us (Nat.lt_of_succ_lt h) .signed)
      (fun rest hrest => extends_product hbelow rest (by simp at h; omega))
  · exact extends_goOn [] (fun start => resume_product_factor x start hstarts)
      (fun hv hw hfirst => hv.juxtaposed hw (hstarts.of_head hfirst)) (hbelow ts h .signed)
      (fun rest hrest => extends_product hbelow rest (Nat.lt_trans hrest h))
termination_by ts.length
decreasing_by all_goals
  subst_vars
  first | exact Nat.lt_succ_of_lt ‹_› | assumption

theorem sound_atom {x : String} {ts : List Token} (hbelow : SoundBelow x ts.length) :
    Sound x .atom ts := by
  intro value rest h
  match ts with
  | .number q :: ts =>
    rw [read_atom_number] at h
    cases h
    exact ⟨[.number q], rfl, .number q⟩
  | .name text :: ts =>
    by_cases hname : text = x
    · rw [hname, read_atom_unknown] at h
      cases h
      exact ⟨[.name x], by rw [hname]; rfl, .unknown⟩
    · rw [read, atom, if_neg hname] at h
      cases h
  | .leftParen :: ts =>
    rw [read_atom_parens] at h
    obtain ⟨⟨inner, left⟩, hread, hclose⟩ := bind_eq_ok h
    obtain ⟨us, rfl, hus⟩ := hbelow ts (Nat.lt_succ_self _) .sum hread
    unfold close at hclose
    split at hclose
    · next heq =>
      cases heq
      cases hclose
      exact ⟨.leftParen :: (us ++ [.rightParen]), by simp, hus.parens⟩
    · cases hclose
  | .plus :: ts | .minus :: ts | .times :: ts | .over :: ts | .power :: ts
  | .rightParen :: ts | [] => simp [read, atom, plain, Except.map] at h

/-- The exponents that a reader accepts. -/
theorem exponent_eq_ok {ts : List Token} {n : Int}
    {rest : { rest : List Token // rest.length < ts.length }} (h : exponent ts = .ok (n, rest)) :
    ∃ q : Fraction, q.isInteger = true ∧
      (ts = .number q :: rest.1 ∧ n = q.num ∨
        ts = .minus :: .number q :: rest.1 ∧ n = -q.num) := by
  unfold exponent at h
  split at h
  · next q _ =>
    split at h
    · next hq =>
      cases h
      exact ⟨q, hq, .inl ⟨rfl, rfl⟩⟩
    · cases h
  · next q _ =>
    split at h
    · next hq =>
      cases h
      exact ⟨q, hq, .inr ⟨rfl, rfl⟩⟩
    · cases h
  · cases h

theorem sound_power {x : String} {ts : List Token} (hatom : Sound x .atom ts) :
    Sound x .power ts := by
  intro value rest h
  rw [read_power] at h
  obtain ⟨⟨base, left⟩, hread, hraise⟩ := bind_eq_ok h
  obtain ⟨us, rfl, hus⟩ := hatom hread
  simp only [resume] at hraise
  unfold raise at hraise
  split at hraise
  · next left _ =>
    obtain ⟨⟨n, after⟩, hexponent, hpow⟩ := bind_eq_ok hraise
    obtain ⟨power, hvalue, hdone⟩ := bind_eq_ok hpow
    cases hdone
    obtain ⟨q, hq, ⟨hleft, rfl⟩ | ⟨hleft, rfl⟩⟩ := exponent_eq_ok hexponent
    · exact ⟨us ++ [.power, .number q], by simp [hleft], hvalue ▸ hus.raised hq⟩
    · exact ⟨us ++ [.power, .minus, .number q], by simp [hleft], hvalue ▸ hus.lowered hq⟩
  · cases hraise
    exact ⟨us, rfl, hus.base⟩

theorem sound_signed {x : String} {ts : List Token} (hbelow : SoundBelow x ts.length)
    (hpower : Sound x .power ts) : Sound x .signed ts := by
  intro value rest h
  rcases stops_sum_or ts with hstops | ⟨us, rfl | rfl⟩
  · rw [read_signed x hstops] at h
    obtain ⟨used, hused, hderived⟩ := hpower h
    exact ⟨used, hused, hderived.unsigned⟩
  · rw [read_signed_plus] at h
    obtain ⟨used, rfl, hderived⟩ := hbelow us (Nat.lt_succ_self _) .signed h
    exact ⟨.plus :: used, rfl, hderived.same⟩
  · rw [read_signed_minus] at h
    obtain ⟨⟨inner, left⟩, hread, heq⟩ := map_eq_ok h
    cases heq
    obtain ⟨used, rfl, hderived⟩ := hbelow us (Nat.lt_succ_self _) .signed hread
    exact ⟨.minus :: used, rfl, hderived.opposite⟩

theorem sound_product {x : String} {ts : List Token} (hbelow : SoundBelow x ts.length)
    (hsigned : Sound x .signed ts) : Sound x .product ts := by
  intro value rest h
  rw [read_product] at h
  obtain ⟨⟨first, left⟩, hread, hresume⟩ := bind_eq_ok h
  have hlt := length_lt_of_read hread
  obtain ⟨us, rfl, hus⟩ := hsigned hread
  obtain ⟨more, rfl, hmore⟩ := extends_product hbelow left hlt hresume
  exact ⟨us ++ more, (List.append_assoc ..).symm, hmore hus.factor⟩

theorem sound_sum {x : String} {ts : List Token} (hbelow : SoundBelow x ts.length)
    (hproduct : Sound x .product ts) : Sound x .sum ts := by
  intro value rest h
  rw [read_sum] at h
  obtain ⟨⟨first, left⟩, hread, hresume⟩ := bind_eq_ok h
  have hlt := length_lt_of_read hread
  obtain ⟨us, rfl, hus⟩ := hproduct hread
  obtain ⟨more, rfl, hmore⟩ := extends_sum hbelow left (Nat.le_of_lt hlt) hresume
  exact ⟨us ++ more, (List.append_assoc ..).symm, hmore hus.summand⟩

/-- **What is read is derived.** By induction on the number of tokens: each level rests on the
next one at the same tokens and on all of them at fewer. -/
theorem sound (x : String) (ts : List Token) (level : Level) : Sound x level ts := by
  have hbelow : SoundBelow x ts.length := fun us _ level => sound x us level
  have hatom := sound_atom hbelow
  have hpower := sound_power hatom
  have hsigned := sound_signed hbelow hpower
  have hproduct := sound_product hbelow hsigned
  cases level with
  | sum => exact sound_sum hbelow hproduct
  | product => exact hproduct
  | signed => exact hsigned
  | power => exact hpower
  | atom => exact hatom
termination_by ts.length

/-! ## Texts -/

/-- Reading a text is reading its tokens and finding that none are left. -/
theorem ofText_of_tokens {text x : String} {ts : List Token} (htokens : tokensOf text = .ok ts)
    (hne : ts ≠ []) : Laurent.ofText text x = (read x .sum ts).bind fun a =>
      match a.2 with
      | [] => .ok a.1
      | token :: _ => .error (.malformed ("trailing " ++ token.describe)) := by
  have hempty : ts.isEmpty = false := by simpa using hne
  simp only [Laurent.ofText, htokens, read, plain, Bind.bind, Except.bind, hempty]
  cases sum x ts with
  | error e => rfl
  | ok a =>
    obtain ⟨value, rest, hrest⟩ := a
    cases rest <;> rfl

/-- A text whose tokens are derivable denotes what the derivation comes to. -/
theorem Derives.ofText {text x : String} {ts : List Token} {v : Except Failure Laurent}
    (htokens : tokensOf text = .ok ts) (h : Derives x .sum ts v) : Laurent.ofText text x = v := by
  have hstops (level : Level) : Stops level [] := nofun
  have hread : read x .sum ts = v.map (·, []) := by
    rw [← bind_resume_of_stops (hstops .sum), ← h.read_append ⟨hstops _, hstops _⟩,
      List.append_nil]
  rw [ofText_of_tokens htokens h.ne_nil, hread]
  cases v <;> rfl

/-- What denotes a polynomial has a derivation that comes to it. -/
theorem derives_of_ofText {text x : String} {p : Laurent} (h : Laurent.ofText text x = .ok p) :
    ∃ ts, tokensOf text = .ok ts ∧ Derives x .sum ts (.ok p) := by
  obtain ⟨ts, htokens, _⟩ := bind_eq_ok h
  have hne : ts ≠ [] := by
    rintro rfl
    simp [Laurent.ofText, htokens, Bind.bind, Except.bind] at h
  rw [ofText_of_tokens htokens hne] at h
  obtain ⟨⟨value, rest⟩, hread, hrest⟩ := bind_eq_ok h
  obtain ⟨used, rfl, hderives⟩ := sound x ts .sum hread
  cases rest with
  | nil =>
    cases hrest
    exact ⟨used ++ [], htokens, by rwa [List.append_nil]⟩
  | cons t rest => cases hrest

/-- **The reader accepts exactly its grammar.** A text denotes a polynomial if and only if its
tokens have a derivation that comes to that polynomial without a failure; and whichever derivation
they have, the text denotes what it comes to, the failure included. -/
theorem ofText_eq_ok_iff_derives (text x : String) :
    (∀ p, Laurent.ofText text x = .ok p ↔
      ∃ ts, tokensOf text = .ok ts ∧ ts ≠ [] ∧ Derives x .sum ts (.ok p)) ∧
    ∀ ts v, tokensOf text = .ok ts → Derives x .sum ts v → Laurent.ofText text x = v := by
  refine ⟨fun p => ⟨fun h => ?_, ?_⟩, fun ts v htokens hderives => hderives.ofText htokens⟩
  · obtain ⟨ts, htokens, hderives⟩ := derives_of_ofText h
    exact ⟨ts, htokens, hderives.ne_nil, hderives⟩
  · rintro ⟨ts, htokens, _, hderives⟩
    exact hderives.ofText htokens

-- A sign in front reaches over the power, and a factor without a sign is one of the product.
example : Laurent.ofText "-x^2" "x" = .ok (.monomial (.ofInt (-1)) 2) := by cbv

example : Laurent.ofText "1/2x" "x" = Laurent.ofText "(1/2)*x" "x" := by cbv

end PuzzlePlayback.Calculator.Expression
