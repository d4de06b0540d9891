/-!
# Why an expression has no value

The faults of the exact calculator behind the equation mode, as causes. Their wording is one
function, `Failure.message`.
-/

namespace PuzzlePlayback.Calculator

/-- A fault of reading or computing with an expression. -/
inductive Failure
  /-- The text does not follow the grammar; the detail says where. -/
  | malformed (detail : String)
  /-- A name other than the variable. -/
  | unknownName (name : String)
  | divisionByZero
  /-- A divisor of two or more terms. -/
  | compoundDivisor
  /-- An exponent beyond the accepted range. -/
  | exponentRange
  /-- A numerator or denominator beyond the representable range. -/
  | overflow
deriving DecidableEq

/-- The wording shown to the learner. -/
def Failure.message : Failure → String
  | .malformed detail => detail
  | .unknownName name => "unknown symbol `" ++ name ++ "`"
  | .divisionByZero => "division by zero"
  | .compoundDivisor => "cannot divide by a multi-term expression"
  | .exponentRange => "exponent out of range"
  | .overflow => "number too large"

/-! ## Computing with what may fail -/

section

variable {ε α β γ : Type} {v : Except ε α}

theorem bind_eq_ok {f : α → Except ε β} {b : β} (h : v.bind f = .ok b) :
    ∃ a, v = .ok a ∧ f a = .ok b := by
  cases v with
  | error e => cases h
  | ok a => exact ⟨a, rfl, h⟩

theorem map_eq_ok {f : α → β} {b : β} (h : v.map f = .ok b) : ∃ a, v = .ok a ∧ f a = b := by
  cases v with
  | error e => cases h
  | ok a => exact ⟨a, rfl, Except.ok.inj h⟩

theorem bind_eq_error {f : α → Except ε β} {e : ε} (h : v.bind f = .error e) :
    v = .error e ∨ ∃ a, v = .ok a ∧ f a = .error e := by
  cases v with
  | error failure =>
    cases h
    exact .inl rfl
  | ok a => exact .inr ⟨a, rfl, h⟩

theorem map_eq_error {f : α → β} {e : ε} (h : v.map f = .error e) : v = .error e := by
  cases v with
  | error failure =>
    cases h
    rfl
  | ok a => cases h

theorem bind_assoc (v : Except ε α) (f : α → Except ε β) (g : β → Except ε γ) :
    (v.bind f).bind g = v.bind fun a => (f a).bind g := by
  cases v <;> rfl

end

end PuzzlePlayback.Calculator
