import Mathlib.Algebra.Order.Field.Basic
import PuzzlePlayback.Proofs.ExactArithmetic
import PuzzlePlayback.Proofs.MachineWords

/-!
# Fractions are exact or refuse

An operation on fractions finds the number that it is asked for, if the lowest terms of that number
fit their words, and otherwise there is an overflow; a division by zero has an error of its own
(`Fraction.IsExactly`). Whether there is an overflow is thus a matter of the result alone. The
order of fractions is the order of their numbers.

All operations reduce a quotient of two integers, so one lemma about the quotient serves all of them
(`isExactly_ofQuotient`); what is left for an operation is which number its quotient is. That a
machine computes the same in words of 64 and 128 bits is the subject of `MachineWords`.

Main result: `arithmetic_is_exact_or_refuses`.
-/

namespace PuzzlePlayback.Calculator.Fraction

/-! ## Exact answers -/

/-- The lowest terms of a number fit their words. -/
def Fits (v : ℚ) : Prop := v.num.natAbs ≤ wordLimit ∧ v.den ≤ wordLimit

instance (v : ℚ) : Decidable (Fits v) := inferInstanceAs (Decidable (_ ∧ _))

/-- The answer to a question for a number: the number if it fits, and otherwise an overflow. There
is no number where something is divided by zero. -/
def IsExactly (answer : Except Failure Fraction) : Option ℚ → Prop
  | none => answer = .error .divisionByZero
  | some v => if Fits v then ∃ q, answer = .ok q ∧ q.toRat = v else answer = .error .overflow

/-- The quotient of two numbers, if it exists. -/
def quotient? (a b : ℚ) : Option ℚ := if b = 0 then none else some (a / b)

/-- The lowest terms of a quotient of integers. -/
theorem lowestTerms_div (num : Int) {den : Int} (h : den ≠ 0) :
    ((num : ℚ) / den).num = lowestNum num den ∧ ((num : ℚ) / den).den = lowestDen num den := by
  have hpos : (0 : Int) < lowestDen num den := Int.natCast_pos.2 (lowestDen_pos num h)
  have hquotient : (num : ℚ) / den = lowestNum num den / (lowestDen num den : Int) := by
    have hden : (den : ℚ) ≠ 0 := Int.cast_ne_zero.2 h
    have hlow : ((lowestDen num den : Int) : ℚ) ≠ 0 := Int.cast_ne_zero.2 hpos.ne'
    rw [div_eq_div_iff hden hlow]
    exact_mod_cast (lowestNum_mul num den).symm
  have hcoprime : (lowestNum num den).natAbs.Coprime (lowestDen num den) := coprime_lowest h
  rw [hquotient]
  exact ⟨Rat.num_div_eq_of_coprime hpos hcoprime,
    Int.ofNat.inj (Rat.den_div_eq_of_coprime hpos hcoprime)⟩

/-- **Reducing is exact.** -/
theorem isExactly_ofQuotient (num den : Int) :
    IsExactly (ofQuotient num den) (quotient? num den) := by
  unfold quotient?
  by_cases hzero : den = 0
  · rw [hzero, if_pos Int.cast_zero, ofQuotient, dif_pos rfl]
    rfl
  · obtain ⟨hnum, hden⟩ := lowestTerms_div num hzero
    rw [if_neg (Int.cast_ne_zero.2 hzero)]
    simp only [IsExactly, Fits, hnum, hden]
    split
    · next hfits =>
      have hanswer : ofQuotient num den = .ok ⟨lowestNum num den, lowestDen num den,
          lowestDen_pos num hzero, coprime_lowest hzero, hfits.1, hfits.2⟩ := by
        rw [ofQuotient, dif_neg hzero, dif_pos hfits]
      exact ⟨_, hanswer, (toRat_ofQuotient hanswer).2⟩
    · next hnot => rw [ofQuotient, dif_neg hzero, dif_neg hnot]

/-- Over the product of two denominators there is a quotient. -/
theorem isExactly_over (num : Int) (a b : Fraction) :
    IsExactly (ofQuotient num (a.den * b.den)) (some (num / (a.den * b.den : Int))) := by
  have hne : ((a.den * b.den : Int) : ℚ) ≠ 0 := by
    push_cast
    exact mul_ne_zero a.den_ne_zero b.den_ne_zero
  have hexact := isExactly_ofQuotient num (a.den * b.den)
  rwa [quotient?, if_neg hne] at hexact

/-! ## Operations -/

/-- What the operations find is exact. -/
structure ExactArithmetic (a b : Fraction) : Prop where
  abs : a.abs.toRat = |a.toRat|
  neg : a.neg.toRat = -a.toRat
  add : IsExactly (a.add b) (some (a.toRat + b.toRat))
  sub : IsExactly (a.sub b) (some (a.toRat - b.toRat))
  mul : IsExactly (a.mul b) (some (a.toRat * b.toRat))
  div : IsExactly (a.div b) (quotient? a.toRat b.toRat)

theorem toRat_abs (a : Fraction) : a.abs.toRat = |a.toRat| := by
  have hden : (0 : ℚ) < a.den := Nat.cast_pos.2 a.den_pos
  rw [toRat, toRat, abs_div, abs_of_pos hden, ← Int.cast_abs, Int.abs_eq_natAbs]
  rfl

theorem isExactly_add (a b : Fraction) : IsExactly (a.add b) (some (a.toRat + b.toRat)) := by
  rw [← crossSum_div]
  exact isExactly_over (crossSum a b) a b

theorem isExactly_div (a b : Fraction) : IsExactly (a.div b) (quotient? a.toRat b.toRat) := by
  have hexact := isExactly_ofQuotient (a.num * b.den) (a.den * b.num)
  have hzero : ((a.den * b.num : Int) : ℚ) = 0 ↔ b.toRat = 0 := by
    rw [Int.cast_eq_zero, toRat_eq_zero_iff, mul_eq_zero, or_iff_right]
    exact Int.natCast_ne_zero.2 a.den_pos.ne'
  simp only [quotient?, hzero, num_mul_den_div] at hexact
  exact hexact

theorem exactArithmetic (a b : Fraction) : ExactArithmetic a b where
  abs := toRat_abs a
  neg := toRat_neg a
  add := isExactly_add a b
  sub := by
    rw [sub_eq_add_neg, ← toRat_neg]
    exact isExactly_add a b.neg
  mul := by
    rw [← num_mul_num_div]
    exact isExactly_over (a.num * b.num) a b
  div := isExactly_div a b

/-! ## Order -/

/-- **Cross multiplication finds the order of the numbers.** -/
theorem compare_eq_cmp (a b : Fraction) : compare a b = cmp a.toRat b.toRat := by
  have ha : (0 : ℚ) < a.den := Nat.cast_pos.2 a.den_pos
  have hb : (0 : ℚ) < b.den := Nat.cast_pos.2 b.den_pos
  have hleft : a.toRat * (a.den * b.den) = ((a.num * b.den : Int) : ℚ) := by
    rw [toRat]
    push_cast
    field_simp
  have hright : b.toRat * (a.den * b.den) = ((b.num * a.den : Int) : ℚ) := by
    rw [toRat]
    push_cast
    field_simp
  calc compare a b = compare (a.num * b.den : Int) (b.num * a.den) := rfl
    _ = cmp (a.num * b.den : Int) (b.num * a.den) := (cmp_eq_compare _ _).symm
    _ = cmp ((a.num * b.den : Int) : ℚ) ((b.num * a.den : Int) : ℚ) :=
      (Int.cast_strictMono.cmp_map_eq _ _).symm
    _ = cmp a.toRat b.toRat := by rw [← hleft, ← hright, cmp_mul_pos_right (mul_pos ha hb)]

/-- Fractions of the same place in the order are equal. -/
theorem compare_eq_iff_eq (a b : Fraction) : compare a b = .eq ↔ a = b := by
  rw [compare_eq_iff, toRat_injective.eq_iff]

/-! ## Exact or refused -/

/-- **Arithmetic is exact or refuses.** What is built in words from words and decimal literals, by
any operations, are the parts of fractions, in lowest terms and inside their words. Between words,
or between fractions, no number on the way to a result overflows. The result is the exact number if
its lowest terms fit, and otherwise an overflow, unless something is divided by zero. The order is
the one of the numbers. -/
theorem arithmetic_is_exact_or_refuses :
    (∀ p, Words.Built p → 0 < p.den ∧ p.num.natAbs.gcd p.den.natAbs = 1 ∧
      p.num.natAbs ≤ wordLimit ∧ p.den ≤ wordLimit) ∧
    (∀ p, Words.Built p ↔ ∃ q : Fraction, q.parts = p) ∧
    (∀ n, Words.InWord n → Words.ofInt n = (ofInt n).parts) ∧
    (∀ text q, ofLiteral text = .ok q → ∃ value places, places ≤ mostDecimals ∧
      Words.ofDigits value places = some (.ok q.parts)) ∧
    (∀ num den, Words.InWord num → Words.InWord den →
      Words.reduce num den = some ((ofQuotient num den).map parts) ∧
      IsExactly (ofQuotient num den) (quotient? num den)) ∧
    ∀ a b : Fraction, Words.Agrees a b ∧ ExactArithmetic a b ∧
      compare a b = cmp a.toRat b.toRat ∧ (compare a b = .eq ↔ a = b) := by
  refine ⟨fun p hp => hp.lowest, Words.built_iff, fun n hn => Words.ofInt_eq hn,
    fun text q hq => Words.ofLiteral_eq_ok hq, fun num den hnum hden => ?_, fun a b => ?_⟩
  · exact ⟨Words.reduce_words hnum hden, isExactly_ofQuotient num den⟩
  · exact ⟨Words.agrees a b, exactArithmetic a b, compare_eq_cmp a b, compare_eq_iff_eq a b⟩

/-- The least word is no numerator, but half of it is. -/
theorem arithmetic_is_exact_or_refuses_least :
    Words.InWord (-9223372036854775808) ∧ Words.InWord 2 ∧ Words.InWord (-1) ∧
    Words.reduce (-9223372036854775808) 2 = some (.ok ⟨-4611686018427387904, 1⟩) ∧
    Words.reduce (-9223372036854775808) (-1) = some (.error .overflow) := by
  have hleast : Words.InWord (-9223372036854775808) := by decide
  have htwo : Words.InWord 2 := by decide
  have hminus : Words.InWord (-1) := by decide
  obtain ⟨_, _, _, _, hreduce, _⟩ := arithmetic_is_exact_or_refuses
  refine ⟨hleast, htwo, hminus, ?_, ?_⟩
  · rw [(hreduce _ _ hleast htwo).1]
    cbv
  · rw [(hreduce _ _ hleast hminus).1]
    cbv

end PuzzlePlayback.Calculator.Fraction
