import PuzzlePlayback.Proofs.ExactPolynomials
import PuzzlePlayback.Proofs.Terms

/-!
# Powers are repeated products

A power multiplies copies of its base onto one, as many as the exponent says. A negative exponent
takes copies of the reciprocal instead, and only a single term has one. An exponent beyond sixteen
is refused whatever the base, so that no power takes more than sixteen products.

What a power denotes is said by `IsPower`, over the rationals. Exponents add up there
(`IsPower.mul`): a base with a negative power is a unit, and without negative powers there is
nothing to cancel.

An exponent is given as a 64-bit word, and one word is not refused: the least one has no magnitude
in its word, and so there is no answer at all. The exponents in a text are parts of fractions, which
leave this word out.

Main results: `powers_are_repeated_products` and, for the least word, `least_exponent_has_no_power`.
-/

namespace PuzzlePlayback.Calculator.Laurent

open LaurentPolynomial

/-! ## Powers over the rationals -/

/-- A product of copies of `f`, or of copies of its inverse for a negative exponent. -/
def IsPower (f power : ℚ[T;T⁻¹]) : Int → Prop
  | .ofNat n => power = f ^ n
  | .negSucc n => ∃ inverse, inverse * f = 1 ∧ power = inverse ^ (n + 1)

theorem isUnit_of_isPower_negSucc {f power : ℚ[T;T⁻¹]} {n : Nat}
    (h : IsPower f power (.negSucc n)) : IsUnit f := by
  obtain ⟨inverse, hinverse, _⟩ := h
  exact IsUnit.of_mul_eq_one_right inverse hinverse

theorem isPower_unit_iff (u : ℚ[T;T⁻¹]ˣ) (power : ℚ[T;T⁻¹]) (n : Int) :
    IsPower u power n ↔ power = ↑(u ^ n) := by
  cases n with
  | ofNat n =>
    rw [IsPower, Int.ofNat_eq_natCast, zpow_natCast, Units.val_pow_eq_pow_val]
  | negSucc n =>
    rw [IsPower, zpow_negSucc, ← inv_pow, Units.val_pow_eq_pow_val]
    constructor
    · rintro ⟨inverse, hinverse, rfl⟩
      rw [Units.mul_eq_one_iff_eq_inv.1 hinverse]
    · intro h
      exact ⟨↑u⁻¹, u.inv_mul, h⟩

/-- **Exponents add up.** -/
theorem IsPower.mul {f a b c : ℚ[T;T⁻¹]} {m n : Int} (ha : IsPower f a m) (hb : IsPower f b n)
    (hc : IsPower f c (m + n)) : a * b = c := by
  by_cases hf : IsUnit f
  · obtain ⟨u, rfl⟩ := hf
    rw [isPower_unit_iff] at ha hb hc
    rw [ha, hb, hc, ← Units.val_mul, ← zpow_add]
  · cases m with
    | negSucc m => exact absurd (isUnit_of_isPower_negSucc ha) hf
    | ofNat m =>
      cases n with
      | negSucc n => exact absurd (isUnit_of_isPower_negSucc hb) hf
      | ofNat n =>
        have hc : c = f ^ (m + n) := hc
        rw [ha, hb, hc, pow_add]

/-! ## Repeated products -/

theorem toPoly_one : one.toPoly = 1 := by
  rw [one, constant, toPoly_monomial, Fraction.toRat_one]
  rfl

theorem mulRepeated_succ (p q : Laurent) (n : Nat) :
    p.mulRepeated (n + 1) q = (p.mulRepeated n q).bind (·.mul p) := by
  induction n generalizing q with
  | zero =>
    show (q.mul p).bind (p.mulRepeated 0) = q.mul p
    cases q.mul p <;> rfl
  | succ n ih =>
    show (q.mul p).bind (p.mulRepeated (n + 1)) = ((q.mul p).bind (p.mulRepeated n)).bind (·.mul p)
    rw [bind_assoc]
    exact congrArg _ (funext ih)

/-- **Repeated products are exact.** -/
theorem toPoly_mulRepeated {p q r : Laurent} {n : Nat} (h : p.mulRepeated n q = .ok r) :
    r.toPoly = q.toPoly * p.toPoly ^ n := by
  induction n generalizing q with
  | zero =>
    cases h
    rw [pow_zero, mul_one]
  | succ n ih =>
    obtain ⟨product, hproduct, hrest⟩ := bind_eq_ok h
    rw [ih hrest, toPoly_mul hproduct, pow_succ', mul_assoc]

theorem mulRepeated_eq_error {p q : Laurent} {n : Nat} {e : Failure}
    (h : p.mulRepeated n q = .error e) : e = .overflow ∨ e = .exponentRange := by
  induction n generalizing q with
  | zero => cases h
  | succ n ih =>
    rcases bind_eq_error h with hproduct | ⟨product, _, hrest⟩
    · exact mul_eq_error hproduct
    · exact ih hrest

/-! ## Exponents -/

theorem pow_eq_error {n : Int} (hn : 16 < n.natAbs) (p : Laurent) :
    p.pow n = .error .exponentRange := by
  have hlimit : exponentLimit = 16 := rfl
  rw [pow, if_pos (by omega)]

theorem pow_of_nonneg {k : Nat} (hk : k ≤ 16) (p : Laurent) : p.pow k = p.mulRepeated k one := by
  have hlimit : exponentLimit = 16 := rfl
  rw [pow, if_neg (by omega)]
  simp only [if_neg (show ¬(k : Int) < 0 by omega)]
  rfl

theorem pow_of_neg {k : Nat} (hpos : 0 < k) (hk : k ≤ 16) (p : Laurent) :
    p.pow (-k) = (one.div p).bind fun q => q.mulRepeated k one := by
  have hlimit : exponentLimit = 16 := rfl
  rw [pow, Int.natAbs_neg, Int.natAbs_natCast, if_neg (by omega)]
  simp only [if_pos (show -(k : Int) < 0 by omega)]
  rfl

/-- Where there is a power, the exponent is within the limit. -/
theorem natAbs_le_of_pow_eq_ok {p r : Laurent} {n : Int} (h : p.pow n = .ok r) :
    n.natAbs ≤ 16 := by
  refine Nat.le_of_not_lt fun hbeyond => ?_
  rw [pow_eq_error hbeyond] at h
  cases h

/-- Every word but the least stands for an exponent. -/
theorem pow?_of_ne {n : Int64} (h : n ≠ .minValue) (p : Laurent) :
    p.pow? n = some (p.pow n.toInt) := if_neg h

/-- An exponent that is part of a fraction is in its word, and not the least. -/
theorem pow?_ofInt {n : Int} (h : n.natAbs ≤ wordLimit) (p : Laurent) :
    p.pow? (.ofInt n) = some (p.pow n) := by
  have hlimit : wordLimit = 2 ^ 63 - 1 := rfl
  have hword : (Int64.ofInt n).toInt = n := Int64.toInt_ofInt_of_le (by omega) (by omega)
  have hne : Int64.ofInt n ≠ .minValue := by
    intro hleast
    have hvalue : n = -9223372036854775808 := hword.symm.trans (congrArg Int64.toInt hleast)
    omega
  rw [pow?_of_ne hne, hword]

/-! ## Powers within the limit -/

/-- How a power is computed from the one before it, and a negative one from the reciprocal. -/
structure RepeatedProduct (p : Laurent) : Prop where
  none : p.pow 0 = .ok one
  next : ∀ k : Nat, k < 16 → p.pow (k + 1 : Nat) = (p.pow k).bind (·.mul p)
  reciprocal : ∀ k : Nat, 0 < k → k ≤ 16 → p.pow (-k) = (one.div p).bind (·.pow k)

/-- What a power is, and which bases have none. -/
structure ExactPower (p : Laurent) (n : Int) : Prop where
  exact : ∀ r, p.pow n = .ok r → ∃ power, IsPower p.toPoly power n ∧ r.Stores power
  term : n < 0 → ∀ r, p.pow n = .ok r → p.toPoly.coeff.support.card = 1
  zero : p.pow n = .error .divisionByZero ↔ n < 0 ∧ p.toPoly = 0
  compound : p.pow n = .error .compoundDivisor ↔ n < 0 ∧ 2 ≤ p.toPoly.coeff.support.card

theorem repeatedProduct (p : Laurent) : RepeatedProduct p where
  none := pow_of_nonneg (k := 0) (by decide) p
  next k hk := by
    rw [pow_of_nonneg (by omega), pow_of_nonneg (by omega), mulRepeated_succ]
  reciprocal k hpos hk := by
    rw [pow_of_neg hpos hk]
    simp only [pow_of_nonneg hk]

section

variable {p r : Laurent} {n : Int}

theorem isPower_pow (h : p.pow n = .ok r) : IsPower p.toPoly r.toPoly n := by
  have hn := natAbs_le_of_pow_eq_ok h
  cases n with
  | ofNat k =>
    rw [Int.ofNat_eq_natCast, pow_of_nonneg (k := k) hn] at h
    rw [IsPower, toPoly_mulRepeated h, toPoly_one, one_mul]
  | negSucc k =>
    rw [Int.negSucc_eq, ← Int.natCast_add_one, pow_of_neg (by omega) (by omega)] at h
    obtain ⟨inverse, hinverse, hpower⟩ := bind_eq_ok h
    refine ⟨inverse.toPoly, (toPoly_div hinverse).2.trans toPoly_one, ?_⟩
    rw [toPoly_mulRepeated hpower, toPoly_one, one_mul]

/-- An error that is neither about size nor about degrees is that of the reciprocal. -/
theorem pow_eq_error_iff {e : Failure} (hn : n.natAbs ≤ 16) (hsize : e ≠ .overflow)
    (hdegree : e ≠ .exponentRange) :
    p.pow n = .error e ↔ n < 0 ∧ one.div p = .error e := by
  have hproduct {q : Laurent} {k : Nat} : q.mulRepeated k one ≠ .error e := fun h =>
    (mulRepeated_eq_error h).elim hsize hdegree
  cases n with
  | ofNat k =>
    rw [Int.ofNat_eq_natCast, pow_of_nonneg (k := k) hn]
    exact iff_of_false hproduct fun h => absurd h.1 (Int.not_lt.2 (Int.natCast_nonneg k))
  | negSucc k =>
    rw [and_iff_right (Int.negSucc_lt_zero k), Int.negSucc_eq, ← Int.natCast_add_one,
      pow_of_neg (by omega) (by omega)]
    constructor
    · intro h
      rcases bind_eq_error h with hinverse | ⟨_, _, hpower⟩
      · exact hinverse
      · exact absurd hpower hproduct
    · intro h
      rw [h]
      rfl

theorem exactPower (p : Laurent) (hn : n.natAbs ≤ 16) : ExactPower p n where
  exact r h := ⟨r.toPoly, isPower_pow h, stores_toPoly r⟩
  term hneg r h := by
    obtain ⟨k, rfl⟩ : ∃ k : Nat, n = -k := ⟨n.natAbs, by omega⟩
    rw [pow_of_neg (by omega) (by omega)] at h
    obtain ⟨inverse, hinverse, _⟩ := bind_eq_ok h
    exact (singleTermDivides one p).term inverse hinverse
  zero := by
    rw [pow_eq_error_iff (e := .divisionByZero) hn nofun nofun, (singleTermDivides one p).zero]
  compound := by
    rw [pow_eq_error_iff (e := .compoundDivisor) hn nofun nofun,
      (singleTermDivides one p).compound]

end

/-! ## Sums of exponents -/

/-- What a word has a power for. -/
theorem pow?_eq_ok {p r : Laurent} {n : Int64} (h : p.pow? n = some (.ok r)) :
    p.pow n.toInt = .ok r ∧ n.toInt.natAbs ≤ 16 := by
  unfold pow? at h
  split at h
  · cases h
  · have hpower := Option.some.inj h
    exact ⟨hpower, natAbs_le_of_pow_eq_ok hpower⟩

/-- **The product of two powers is the power of the sum.** -/
theorem toPoly_mul_pow {p a b c : Laurent} {m n : Int64} (ha : p.pow? m = some (.ok a))
    (hb : p.pow? n = some (.ok b)) (hc : p.pow? (m + n) = some (.ok c)) :
    a.toPoly * b.toPoly = c.toPoly := by
  obtain ⟨ha, hm⟩ := pow?_eq_ok ha
  obtain ⟨hb, hn⟩ := pow?_eq_ok hb
  obtain ⟨hc, -⟩ := pow?_eq_ok hc
  have hsum : (m + n).toInt = m.toInt + n.toInt := by
    rw [Int64.toInt_add, Int.bmod_def]
    omega
  rw [hsum] at hc
  exact (isPower_pow ha).mul (isPower_pow hb) (isPower_pow hc)

/-! ## Powers -/

/-- **Powers are repeated products.** Every word but the least has the power of the number that it
stands for, and so has every exponent that is part of a fraction. An exponent of a magnitude beyond
sixteen is refused. Within sixteen each power is the product of the one before and the base, a
negative power is one of the reciprocal, and what is found is the exact power. Zero and sums of two
or more terms have no negative powers, and errors of their own. The product of two powers is the
power of the sum of the exponents. -/
theorem powers_are_repeated_products (p : Laurent) :
    (∀ n : Int64, n ≠ .minValue → p.pow? n = some (p.pow n.toInt)) ∧
    (∀ q : Fraction, p.pow? (.ofInt q.num) = some (p.pow q.num) ∧
      p.pow? (.ofInt (-q.num)) = some (p.pow (-q.num))) ∧
    (∀ n : Int, 16 < n.natAbs → p.pow n = .error .exponentRange) ∧
    RepeatedProduct p ∧
    (∀ n : Int, n.natAbs ≤ 16 → ExactPower p n) ∧
    ∀ (m n : Int64) (a b c : Laurent), p.pow? m = some (.ok a) → p.pow? n = some (.ok b) →
      p.pow? (m + n) = some (.ok c) →
      a.toPoly * b.toPoly = c.toPoly ∧ ∀ r, a.mul b = .ok r → r = c := by
  refine ⟨fun n hn => pow?_of_ne hn p, fun q => ⟨pow?_ofInt q.num_le p, pow?_ofInt ?_ p⟩,
    fun n hn => pow_eq_error hn p, repeatedProduct p, fun n hn => exactPower p hn,
    fun m n a b c ha hb hc => ?_⟩
  · rw [Int.natAbs_neg]
    exact q.num_le
  · have hproduct := toPoly_mul_pow ha hb hc
    refine ⟨hproduct, fun r hr => toPoly_injective ?_⟩
    rw [toPoly_mul hr, hproduct]

/-- The polynomial `2x`. -/
def twice : Laurent := monomial (.ofInt 2) 1

/-- The square of `2x` and the third power of its reciprocal make the reciprocal. -/
theorem powers_are_repeated_products_twice :
    twice.pow? 17 = some (.error .exponentRange) ∧
    ∃ square cube reciprocal : Laurent, twice.pow? 2 = some (.ok square) ∧
      twice.pow? (-3) = some (.ok cube) ∧ twice.pow? (-1) = some (.ok reciprocal) ∧
      square.mul cube = .ok reciprocal ∧
      ∃ power, IsPower twice.toPoly power (-3) ∧ cube.Stores power := by
  obtain ⟨hword, _, hbeyond, _, hexact, hsum⟩ := powers_are_repeated_products twice
  obtain ⟨square, cube, reciprocal, r, hsquare, hcube, hreciprocal, hr⟩ :
      ∃ square cube reciprocal r : Laurent, twice.pow? 2 = some (.ok square) ∧
        twice.pow? (-3) = some (.ok cube) ∧ twice.pow? (2 + -3) = some (.ok reciprocal) ∧
        square.mul cube = .ok r := ⟨_, _, _, _, rfl, rfl, rfl, rfl⟩
  have hrefused := hword 17 (by decide)
  rw [hbeyond _ (by decide)] at hrefused
  refine ⟨hrefused, square, cube, reciprocal, hsquare, hcube, hreciprocal, ?_,
    (hexact (-3) (by decide)).exact cube (pow?_eq_ok hcube).1⟩
  rw [hr, (hsum _ _ _ _ _ hsquare hcube hreciprocal).2 r hr]

/-- The least word is an exponent beyond sixteen, and it is not refused: it has no answer. -/
theorem least_exponent_has_no_power :
    16 < Int64.minValue.toInt.natAbs ∧ var.pow? .minValue = none := by
  decide +kernel

end PuzzlePlayback.Calculator.Laurent
