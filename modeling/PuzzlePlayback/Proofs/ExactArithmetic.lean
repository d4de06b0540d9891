import Mathlib.Algebra.Polynomial.Laurent
import Mathlib.LinearAlgebra.Finsupp.LinearCombination
import Mathlib.Tactic.FieldSimp
import Mathlib.Tactic.Linarith
import Mathlib.Tactic.Ring
import PuzzlePlayback.Calculator.Laurent

/-!
# The calculator computes exactly

A fraction denotes a rational number (`Fraction.toRat`), and a polynomial of the calculator a
Laurent polynomial over the rationals (`Laurent.toPoly`). Every operation that returns a result
returns the exact one; this is the boundary between the bounded words of the calculator and the
algebra that proofs about it go by.

The value of a polynomial at a number is linear in the polynomial (`valueAt`), also at zero, where
it is not a homomorphism.
-/

namespace PuzzlePlayback.Calculator

/-! ## Fractions -/

namespace Fraction

/-- The rational number that a fraction denotes. -/
def toRat (q : Fraction) : ℚ := q.num / q.den

theorem den_ne_zero (q : Fraction) : (q.den : ℚ) ≠ 0 := Nat.cast_ne_zero.2 q.den_pos.ne'

/-- The lowest terms denote the same quotient. -/
theorem lowestNum_mul (num den : Int) :
    lowestNum num den * den = num * lowestDen num den := by
  have hcross : num.natAbs / num.natAbs.gcd den.natAbs * den.natAbs =
      num.natAbs * (den.natAbs / num.natAbs.gcd den.natAbs) := by
    rw [Nat.div_mul_right_comm (Nat.gcd_dvd_left _ _), Nat.mul_div_assoc _ (Nat.gcd_dvd_right _ _)]
  calc lowestNum num den * den
      = num.sign * ((num.natAbs / num.natAbs.gcd den.natAbs : Nat) * (den * den.sign)) := by
        rw [lowestNum]; ring
    _ = num.sign * ((num.natAbs / num.natAbs.gcd den.natAbs * den.natAbs : Nat) : Int) := by
        rw [Int.mul_sign_self, Nat.cast_mul]
    _ = num.sign * num.natAbs * lowestDen num den := by
        rw [hcross, Nat.cast_mul, lowestDen, mul_assoc]
    _ = num * lowestDen num den := by rw [Int.sign_mul_natAbs]

/-- What is reduced to lowest terms is the quotient. -/
theorem toRat_ofQuotient {num den : Int} {q : Fraction} (h : ofQuotient num den = .ok q) :
    den ≠ 0 ∧ q.toRat = num / den := by
  unfold ofQuotient at h
  split at h
  · cases h
  · next hden =>
    split at h
    · cases h
      refine ⟨hden, ?_⟩
      have hcross := lowestNum_mul num den
      have hlow : (lowestDen num den : ℚ) ≠ 0 := Nat.cast_ne_zero.2 (lowestDen_pos num hden).ne'
      have hq : (den : ℚ) ≠ 0 := Int.cast_ne_zero.2 hden
      rw [toRat, div_eq_div_iff hlow hq]
      exact_mod_cast hcross
    · cases h

/-- A fraction stores the lowest terms of its number. -/
theorem num_toRat (q : Fraction) : q.toRat.num = q.num :=
  Rat.num_div_eq_of_coprime (Int.natCast_pos.2 q.den_pos) q.reduced

theorem den_toRat (q : Fraction) : q.toRat.den = q.den :=
  Int.ofNat.inj (Rat.den_div_eq_of_coprime (Int.natCast_pos.2 q.den_pos) q.reduced)

theorem toRat_injective : Function.Injective toRat := fun a b h =>
  ext (by rw [← num_toRat, h, num_toRat]) (by rw [← den_toRat, h, den_toRat])

@[simp] theorem toRat_zero : Fraction.zero.toRat = 0 := by
  simp [toRat, zero, ofInt]

@[simp] theorem toRat_one : Fraction.one.toRat = 1 := by
  simp [toRat, one, ofInt, wordLimit]

/-- Only zero denotes zero. -/
theorem toRat_eq_zero_iff {q : Fraction} : q.toRat = 0 ↔ q.num = 0 := by
  simp [toRat, q.den_ne_zero]

@[simp] theorem toRat_neg (q : Fraction) : q.neg.toRat = -q.toRat := by
  simp [toRat, neg, neg_div]

/-! The operations on rational numbers, as quotients of what is reduced. -/

theorem crossSum_div (a b : Fraction) :
    ((crossSum a b : Int) : ℚ) / ((a.den * b.den : Int) : ℚ) = a.toRat + b.toRat := by
  have ha := a.den_ne_zero
  have hb := b.den_ne_zero
  rw [crossSum, toRat, toRat]
  push_cast
  field_simp

theorem num_mul_num_div (a b : Fraction) :
    ((a.num * b.num : Int) : ℚ) / ((a.den * b.den : Int) : ℚ) = a.toRat * b.toRat := by
  rw [toRat, toRat, div_mul_div_comm]
  push_cast
  rfl

theorem num_mul_den_div (a b : Fraction) :
    ((a.num * b.den : Int) : ℚ) / ((a.den * b.num : Int) : ℚ) = a.toRat / b.toRat := by
  rw [toRat, toRat, div_div_div_eq]
  push_cast
  rfl

theorem toRat_add {a b r : Fraction} (h : a.add b = .ok r) : r.toRat = a.toRat + b.toRat :=
  (toRat_ofQuotient h).2.trans (crossSum_div a b)

theorem toRat_mul {a b r : Fraction} (h : a.mul b = .ok r) : r.toRat = a.toRat * b.toRat :=
  (toRat_ofQuotient h).2.trans (num_mul_num_div a b)

theorem toRat_div {a b r : Fraction} (h : a.div b = .ok r) : r.toRat = a.toRat / b.toRat :=
  (toRat_ofQuotient h).2.trans (num_mul_den_div a b)

theorem toRat_mulRepeated {q product r : Fraction} {n : Nat}
    (h : q.mulRepeated n product = .ok r) : r.toRat = product.toRat * q.toRat ^ n := by
  induction n generalizing product with
  | zero =>
    cases h
    simp
  | succ n ih =>
    rw [mulRepeated] at h
    split at h
    · next next hnext =>
      rw [ih h, toRat_mul hnext, pow_succ']
      ring
    · cases h

/-- Cross multiplication finds equal fractions equal. -/
theorem compare_eq_iff {a b : Fraction} : compare a b = .eq ↔ a.toRat = b.toRat := by
  have ha := a.den_ne_zero
  have hb := b.den_ne_zero
  have hcompare : compare a b = compare (a.num * b.den) (b.num * a.den) := rfl
  rw [hcompare, Std.compare_eq_iff_eq, toRat, toRat, div_eq_div_iff ha hb]
  exact_mod_cast Iff.rfl

end Fraction

/-! ## Polynomials -/

namespace Laurent

open LaurentPolynomial AddMonoidAlgebra

/-- The Laurent polynomial that a list of terms sums up to. -/
noncomputable def sumOf (terms : List (Int × Fraction)) : ℚ[T;T⁻¹] :=
  (terms.map fun t => single t.1 t.2.toRat).sum

/-- The Laurent polynomial that a polynomial denotes. -/
noncomputable def toPoly (p : Laurent) : ℚ[T;T⁻¹] := sumOf p.terms.entries

theorem sumOf_cons (t : Int × Fraction) (terms : List (Int × Fraction)) :
    sumOf (t :: terms) = single t.1 t.2.toRat + sumOf terms := List.sum_cons

/-- The coefficients of a sum of terms with increasing degrees are found by looking them up. -/
theorem coeff_sumOf {terms : List (Int × Fraction)}
    (sorted : terms.Pairwise fun a b => compare a.1 b.1 = .lt) (degree : Int) :
    (sumOf terms).coeff degree = ((SortedMap.lookup degree terms).getD .zero).toRat := by
  induction terms with
  | nil => simp [sumOf, SortedMap.lookup]
  | cons t terms ih =>
    obtain ⟨hhead, hrest⟩ := List.pairwise_cons.1 sorted
    rw [sumOf_cons, coeff_add, Finsupp.add_apply, ih hrest, coeff_single, Finsupp.single_apply,
      SortedMap.lookup]
    by_cases hdegree : degree = t.1
    · -- A later term has another degree.
      have hnone : SortedMap.lookup degree terms = none := by
        cases hfound : SortedMap.lookup degree terms with
        | none => rfl
        | some coef =>
          have hlt := hhead _ ((SortedMap.lookup_eq_some_iff hrest).1 hfound)
          rw [hdegree] at hlt
          simp at hlt
      rw [hnone, if_pos hdegree.symm, if_pos (by simp [hdegree])]
      simp
    · rw [if_neg (Ne.symm hdegree), if_neg (by simpa using hdegree), zero_add]

theorem coeff_toPoly (p : Laurent) (degree : Int) :
    p.toPoly.coeff degree = (p.coeff degree).toRat := coeff_sumOf p.terms.sorted degree

theorem toPoly_zero : zero.toPoly = 0 := rfl

/-- Replacing a coefficient adds the difference. -/
theorem toPoly_put (p : Laurent) (degree : Int) (coef : Fraction) :
    (p.put degree coef).toPoly =
      p.toPoly + single degree (coef.toRat - (p.coeff degree).toRat) := by
  refine LaurentPolynomial.ext fun other => ?_
  rw [coeff_add, Finsupp.add_apply, coeff_single, Finsupp.single_apply, coeff_toPoly, coeff_toPoly,
    coeff_put]
  by_cases h : other = degree
  · simp [h]
  · simp [h, Ne.symm h]

theorem toPoly_monomial (coef : Fraction) (degree : Int) :
    (monomial coef degree).toPoly = single degree coef.toRat := by
  rw [monomial, toPoly_put, toPoly_zero, coeff_zero, Fraction.toRat_zero, sub_zero, zero_add]

theorem toPoly_addTerm {p r : Laurent} {degree : Int} {coef : Fraction}
    (h : p.addTerm degree coef = .ok r) : r.toPoly = p.toPoly + single degree coef.toRat := by
  unfold addTerm at h
  split at h
  · next present hpresent =>
    obtain ⟨sum, hsum, rfl⟩ := map_eq_ok h
    have hcoeff : p.coeff degree = present := by rw [coeff, hpresent]; rfl
    rw [toPoly_put, hcoeff, Fraction.toRat_add hsum, add_sub_cancel_left]
  · next hnone =>
    cases h
    have hcoeff : p.coeff degree = .zero := by rw [coeff, hnone]; rfl
    rw [toPoly_put, hcoeff, Fraction.toRat_zero, sub_zero]

/-- Steps that each add something add all of it, one after the other. -/
theorem toPoly_foldlM {terms : List (Int × Fraction)} {p r : Laurent}
    {f : Laurent → Int × Fraction → Except Failure Laurent} {added : Int × Fraction → ℚ[T;T⁻¹]}
    (hf : ∀ sum t next, f sum t = .ok next → next.toPoly = sum.toPoly + added t)
    (h : terms.foldlM f p = .ok r) : r.toPoly = p.toPoly + (terms.map added).sum := by
  induction terms generalizing p with
  | nil =>
    cases h
    simp
  | cons t terms ih =>
    rw [List.foldlM_cons] at h
    obtain ⟨next, hnext, hrest⟩ := bind_eq_ok h
    rw [ih hrest, hf p t next hnext, List.map_cons, List.sum_cons, add_assoc]

/-- **Sums are exact.** -/
theorem toPoly_add {p q r : Laurent} (h : p.add q = .ok r) : r.toPoly = p.toPoly + q.toPoly := by
  have hterm (sum : Laurent) (t : Int × Fraction) (next : Laurent)
      (hnext : sum.addTerm t.1 t.2 = .ok next) :
      next.toPoly = sum.toPoly + single t.1 t.2.toRat := toPoly_addTerm hnext
  exact toPoly_foldlM hterm h

theorem toPoly_neg (p : Laurent) : p.neg.toPoly = -p.toPoly := by
  refine LaurentPolynomial.ext fun degree => ?_
  rw [AddMonoidAlgebra.coeff_neg, Finsupp.neg_apply, coeff_toPoly, coeff_toPoly, coeff_neg,
    Fraction.toRat_neg]

theorem toPoly_sub {p q r : Laurent} (h : p.sub q = .ok r) : r.toPoly = p.toPoly - q.toPoly := by
  rw [toPoly_add h, toPoly_neg, sub_eq_add_neg]

theorem toPoly_addProduct {sum r : Laurent} {s t : Int × Fraction}
    (h : sum.addProduct s t = .ok r) :
    r.toPoly = sum.toPoly + single s.1 s.2.toRat * single t.1 t.2.toRat := by
  unfold addProduct at h
  split at h
  · obtain ⟨coef, hcoef, hadd⟩ := bind_eq_ok h
    rw [toPoly_addTerm hadd, Fraction.toRat_mul hcoef, single_mul_single]
  · cases h

/-- **Products are exact.** -/
theorem toPoly_mul {p q r : Laurent} (h : p.mul q = .ok r) : r.toPoly = p.toPoly * q.toPoly := by
  have hrow (sum : Laurent) (s : Int × Fraction) (next : Laurent)
      (hnext : q.terms.entries.foldlM (fun sum t => sum.addProduct s t) sum = .ok next) :
      next.toPoly = sum.toPoly + single s.1 s.2.toRat * q.toPoly := by
    have hproduct (sum : Laurent) (t : Int × Fraction) (next : Laurent)
        (hnext : sum.addProduct s t = .ok next) :
        next.toPoly = sum.toPoly + single s.1 s.2.toRat * single t.1 t.2.toRat :=
      toPoly_addProduct hnext
    rw [toPoly_foldlM hproduct hnext, List.sum_map_mul_left]
    rfl
  rw [toPoly_foldlM hrow h, toPoly_zero, zero_add, List.sum_map_mul_right]
  rfl

/-- **Quotients are exact**, and nothing is divided by zero. -/
theorem toPoly_div {p q r : Laurent} (h : p.div q = .ok r) :
    q.toPoly ≠ 0 ∧ r.toPoly * q.toPoly = p.toPoly := by
  unfold div at h
  split at h
  · cases h
  · next degree coef hentries =>
    obtain ⟨inverse, hinverse, h⟩ := bind_eq_ok h
    split at h
    · have hnum : coef.num ≠ 0 := q.nonzero (degree, coef) (by simp [hentries])
      have hcoef : coef.toRat ≠ 0 := mt Fraction.toRat_eq_zero_iff.1 hnum
      have hq : q.toPoly = single degree coef.toRat := by
        rw [toPoly, hentries, sumOf, List.map_singleton, List.sum_singleton]
      refine ⟨by rw [hq]; exact single_ne_zero.2 hcoef, ?_⟩
      rw [toPoly_mul h, toPoly_monomial, hq, mul_assoc, single_mul_single, neg_add_cancel,
        Fraction.toRat_div hinverse, Fraction.toRat_one, one_div_mul_cancel hcoef]
      exact mul_one _
    · cases h
  · cases h

theorem toPoly_of_constant {p : Laurent} {c : Fraction} (h : p.constant? = some c) :
    p.toPoly = C c.toRat := by
  unfold constant? at h
  split at h
  · next hentries =>
    cases h
    rw [toPoly, hentries, Fraction.toRat_zero, map_zero]
    rfl
  · next degree coef hentries =>
    split at h
    · next hdegree =>
      cases h
      rw [toPoly, hentries, sumOf, List.map_singleton, List.sum_singleton, hdegree, single_eq_C]
    · cases h
  · cases h

theorem toPoly_of_isVar {p : Laurent} (h : p.isVar = true) : p.toPoly = T 1 := by
  obtain rfl : p = var := by simpa [isVar] using h
  rw [var, toPoly_monomial, Fraction.toRat_one]
  rfl

/-! ## Values -/

/-- The value of a Laurent polynomial at a number. At zero this is what is left of it without
the terms of negative degree. -/
noncomputable def valueAt (x : ℚ) : ℚ[T;T⁻¹] →ₗ[ℚ] ℚ :=
  (Finsupp.linearCombination ℚ fun degree : ℤ => x ^ degree) ∘ₗ
    (coeffLinearEquiv ℚ).toLinearMap

theorem valueAt_single (x : ℚ) (degree : ℤ) (coef : ℚ) :
    valueAt x (single degree coef) = coef * x ^ degree := by
  show Finsupp.linearCombination ℚ _ (Finsupp.single degree coef) = _
  rw [Finsupp.linearCombination_single, smul_eq_mul]

theorem toRat_evalTerm {x r : Fraction} {degree : Int} {coef : Fraction}
    (h : evalTerm x degree coef = .ok r) : r.toRat = coef.toRat * x.toRat ^ degree := by
  obtain ⟨power, hpower, h⟩ := bind_eq_ok h
  have hnat : power.toRat = x.toRat ^ degree.natAbs := by
    rw [Fraction.toRat_mulRepeated hpower, Fraction.toRat_one, one_mul]
  dsimp only at h
  split at h
  · next hneg =>
    obtain ⟨inverse, hinverse, h⟩ := bind_eq_ok h
    have hdegree : degree = -(degree.natAbs : ℤ) := by omega
    rw [Fraction.toRat_mul h, Fraction.toRat_div hinverse, Fraction.toRat_one, hnat, one_div]
    conv_rhs => rw [hdegree, zpow_neg, zpow_natCast]
  · next hpos =>
    have hdegree : degree = (degree.natAbs : ℤ) := by omega
    rw [Fraction.toRat_mul h, hnat]
    conv_rhs => rw [hdegree, zpow_natCast]

/-- **Values are exact.** -/
theorem toRat_eval {p : Laurent} {x v : Fraction} (h : p.eval x = .ok v) :
    v.toRat = valueAt x.toRat p.toPoly := by
  suffices hfold : ∀ (terms : List (Int × Fraction)) (total : Fraction),
      terms.foldlM (fun total t => do total.add (← evalTerm x t.1 t.2)) total = .ok v →
        v.toRat = total.toRat + valueAt x.toRat (sumOf terms) by
    rw [hfold p.terms.entries .zero h, Fraction.toRat_zero, zero_add, toPoly]
  intro terms
  induction terms with
  | nil =>
    rintro total h
    cases h
    rw [sumOf, List.map_nil, List.sum_nil, map_zero, add_zero]
  | cons t terms ih =>
    intro total h
    rw [List.foldlM_cons] at h
    obtain ⟨next, hnext, hrest⟩ := bind_eq_ok h
    obtain ⟨term, hterm, hadd⟩ := bind_eq_ok hnext
    rw [ih next hrest, Fraction.toRat_add hadd, toRat_evalTerm hterm, sumOf_cons, map_add,
      valueAt_single, add_assoc]

end Laurent

end PuzzlePlayback.Calculator
