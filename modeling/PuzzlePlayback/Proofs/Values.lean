import PuzzlePlayback.Proofs.ExactArithmetic

/-!
# Values of polynomials

The value of a polynomial at a number is the sum of its terms (`Laurent.value`). At zero it is one
only if no degree is negative (`Laurent.DefinedAt`).

Where the operands are defined, so are the results of the calculator, and their values are the sum,
the difference, the product and the quotient of the values. Sums need no more than linearity.
Products need that `x ^ (m + n)` is `x ^ m * x ^ n` for the degrees at hand, which holds unless `x`
is zero and one of them is negative. A quotient is a product with the reciprocal of a single term;
at zero a term that has a reciprocal there is a constant.
-/

namespace PuzzlePlayback.Calculator.Laurent

open LaurentPolynomial AddMonoidAlgebra

/-! ## Values -/

/-- The value at a number. -/
def value (p : Laurent) (x : ℚ) : ℚ := (p.terms.entries.map fun t => t.2.toRat * x ^ t.1).sum

/-- Zero has no negative powers. -/
def DefinedAt (p : Laurent) (x : ℚ) : Prop := x = 0 → ∀ t ∈ p.terms.entries, 0 ≤ t.1

theorem valueAt_sumOf (x : ℚ) (terms : List (Int × Fraction)) :
    valueAt x (sumOf terms) = (terms.map fun t => t.2.toRat * x ^ t.1).sum := by
  simp only [sumOf, map_list_sum, List.map_map, Function.comp_def, valueAt_single]

theorem valueAt_toPoly (p : Laurent) (x : ℚ) : valueAt x p.toPoly = p.value x :=
  valueAt_sumOf x p.terms.entries

/-! ## Where a Laurent polynomial is defined -/

/-- The Laurent polynomials that have a value at a number. -/
def regular (x : ℚ) : AddSubgroup ℚ[T;T⁻¹] where
  carrier := {f | x = 0 → ∀ degree < 0, f.coeff degree = 0}
  zero_mem' := fun _ _ _ => rfl
  add_mem' := fun {f g} hf hg hx degree hneg => by
    rw [coeff_add, Finsupp.add_apply, hf hx degree hneg, hg hx degree hneg, add_zero]
  neg_mem' := fun {f} hf hx degree hneg => by
    rw [AddMonoidAlgebra.coeff_neg, Finsupp.neg_apply, hf hx degree hneg, neg_zero]

theorem single_mem_regular {x : ℚ} {degree : ℤ} (h : x = 0 → 0 ≤ degree) (coef : ℚ) :
    single degree coef ∈ regular x := by
  intro hx other hneg
  have hne : degree ≠ other := by have := h hx; omega
  rw [coeff_single, Finsupp.single_apply, if_neg hne]

/-- The stored terms are those whose coefficient is not zero. -/
theorem coeff_toPoly_ne_zero_iff (p : Laurent) (degree : Int) :
    p.toPoly.coeff degree ≠ 0 ↔ ∃ coef, (degree, coef) ∈ p.terms.entries := by
  have hlookup : ∀ coef, p.terms.get? degree = some coef ↔ (degree, coef) ∈ p.terms.entries :=
    fun coef => p.terms.get?_eq_some_iff
  rw [coeff_toPoly, coeff]
  cases hfound : p.terms.get? degree with
  | none => simp [← hlookup, hfound]
  | some coef =>
    have hmem := (hlookup coef).1 hfound
    exact iff_of_true (mt Fraction.toRat_eq_zero_iff.1 (p.nonzero _ hmem)) ⟨coef, hmem⟩

theorem definedAt_iff (p : Laurent) (x : ℚ) : p.DefinedAt x ↔ p.toPoly ∈ regular x := by
  constructor
  · intro h hx degree hneg
    by_contra hne
    obtain ⟨coef, hmem⟩ := (coeff_toPoly_ne_zero_iff p degree).1 hne
    exact absurd (h hx _ hmem) (not_le.2 hneg)
  · intro h hx t ht
    by_contra hneg
    exact (coeff_toPoly_ne_zero_iff p t.1).2 ⟨t.2, ht⟩ (h hx t.1 (not_le.1 hneg))

/-! ## Products -/

theorem toPoly_mul_toPoly (p q : Laurent) :
    p.toPoly * q.toPoly = (p.terms.entries.map fun s => (q.terms.entries.map fun t =>
      single (s.1 + t.1) (s.2.toRat * t.2.toRat)).sum).sum := by
  have hrow : ∀ s : Int × Fraction, single s.1 s.2.toRat * q.toPoly =
      (q.terms.entries.map fun t => single (s.1 + t.1) (s.2.toRat * t.2.toRat)).sum := fun s => by
    simp only [toPoly, sumOf, ← List.sum_map_mul_left, single_mul_single]
  simp only [← hrow, List.sum_map_mul_right]
  rfl

variable {p q r : Laurent} {x : ℚ}

/-- The degrees of two polynomials that are defined at zero are no obstacle. -/
theorem zpow_add_of_definedAt (hp : p.DefinedAt x) (hq : q.DefinedAt x) {s t : Int × Fraction}
    (hs : s ∈ p.terms.entries) (ht : t ∈ q.terms.entries) :
    x ^ (s.1 + t.1) = x ^ s.1 * x ^ t.1 := by
  refine zpow_add' ?_
  by_cases hx : x = 0
  · have hs := hp hx s hs
    have ht := hq hx t ht
    omega
  · exact .inl hx

theorem toPoly_mul_mem_regular (hp : p.DefinedAt x) (hq : q.DefinedAt x) :
    p.toPoly * q.toPoly ∈ regular x := by
  rw [toPoly_mul_toPoly]
  refine list_sum_mem fun f hf => ?_
  obtain ⟨s, hs, rfl⟩ := List.mem_map.1 hf
  refine list_sum_mem fun g hg => ?_
  obtain ⟨t, ht, rfl⟩ := List.mem_map.1 hg
  exact single_mem_regular (fun hx => add_nonneg (hp hx s hs) (hq hx t ht)) _

theorem valueAt_toPoly_mul (hp : p.DefinedAt x) (hq : q.DefinedAt x) :
    valueAt x (p.toPoly * q.toPoly) = p.value x * q.value x := by
  have hterm : ∀ s ∈ p.terms.entries, ∀ t ∈ q.terms.entries,
      valueAt x (single (s.1 + t.1) (s.2.toRat * t.2.toRat)) =
        s.2.toRat * x ^ s.1 * (t.2.toRat * x ^ t.1) := fun s hs t ht => by
    rw [valueAt_single, zpow_add_of_definedAt hp hq hs ht]
    ring
  have hrow : ∀ s ∈ p.terms.entries, valueAt x (q.terms.entries.map fun t =>
      single (s.1 + t.1) (s.2.toRat * t.2.toRat)).sum = s.2.toRat * x ^ s.1 * q.value x :=
    fun s hs => by
      rw [map_list_sum, List.map_map, Function.comp_def, List.map_congr_left (hterm s hs),
        List.sum_map_mul_left, value]
  rw [toPoly_mul_toPoly, map_list_sum, List.map_map, Function.comp_def, List.map_congr_left hrow,
    List.sum_map_mul_right, ← value]

/-! ## The calculator -/

theorem value_add (h : p.add q = .ok r) (x : ℚ) : r.value x = p.value x + q.value x := by
  simp only [← valueAt_toPoly, toPoly_add h, map_add]

theorem definedAt_add (h : p.add q = .ok r) (hp : p.DefinedAt x) (hq : q.DefinedAt x) :
    r.DefinedAt x := by
  rw [definedAt_iff] at *
  exact toPoly_add h ▸ add_mem hp hq

theorem value_sub (h : p.sub q = .ok r) (x : ℚ) : r.value x = p.value x - q.value x := by
  simp only [← valueAt_toPoly, toPoly_sub h, map_sub]

theorem definedAt_sub (h : p.sub q = .ok r) (hp : p.DefinedAt x) (hq : q.DefinedAt x) :
    r.DefinedAt x := by
  rw [definedAt_iff] at *
  exact toPoly_sub h ▸ sub_mem hp hq

theorem value_mul (h : p.mul q = .ok r) (hp : p.DefinedAt x) (hq : q.DefinedAt x) :
    r.value x = p.value x * q.value x := by
  rw [← valueAt_toPoly, toPoly_mul h, valueAt_toPoly_mul hp hq]

theorem definedAt_mul (h : p.mul q = .ok r) (hp : p.DefinedAt x) (hq : q.DefinedAt x) :
    r.DefinedAt x :=
  (definedAt_iff r x).2 (toPoly_mul h ▸ toPoly_mul_mem_regular hp hq)

/-- A quotient is a product with the reciprocal of the only term of the divisor. -/
theorem div_eq_ok (h : p.div q = .ok r) : ∃ degree coef inverse,
    q.terms.entries = [(degree, coef)] ∧ p.mul (monomial inverse (-degree)) = .ok r := by
  unfold div at h
  split at h
  · cases h
  · next degree coef hentries =>
    obtain ⟨inverse, _, h⟩ := bind_eq_ok h
    split at h
    · exact ⟨degree, coef, inverse, hentries, h⟩
    · cases h
  · cases h

theorem definedAt_div (h : p.div q = .ok r) (hp : p.DefinedAt x) (hne : q.value x ≠ 0) :
    r.DefinedAt x := by
  obtain ⟨degree, coef, inverse, hentries, hmul⟩ := div_eq_ok h
  have hdegree : x = 0 → 0 ≤ -degree := by
    rintro rfl
    by_contra hneg
    have hzero : (0 : ℚ) ^ degree = 0 := zero_zpow degree (by omega)
    exact hne (by simp [value, hentries, hzero])
  refine definedAt_mul hmul hp ((definedAt_iff _ x).2 ?_)
  rw [toPoly_monomial]
  exact single_mem_regular hdegree _

theorem value_div (h : p.div q = .ok r) (hp : p.DefinedAt x) (hq : q.DefinedAt x)
    (hne : q.value x ≠ 0) : r.value x * q.value x = p.value x := by
  rw [← valueAt_toPoly_mul (definedAt_div h hp hne) hq, (toPoly_div h).2, valueAt_toPoly]

theorem value_of_constant {c : Fraction} (h : p.constant? = some c) (x : ℚ) :
    p.value x = c.toRat := by
  rw [← valueAt_toPoly, toPoly_of_constant h, ← single_eq_C, valueAt_single, zpow_zero, mul_one]

end PuzzlePlayback.Calculator.Laurent
