import PuzzlePlayback.Calculator.Expression
import PuzzlePlayback.Proofs.Values

/-!
# Polynomials are exact and canonical

Whatever the calculator computes, it stores the terms of the Laurent polynomial that the same
operations give over the rationals, each coefficient in lowest terms and none of them zero
(`Laurent.Stores`). So two results are equal exactly if the two Laurent polynomials are.

What is computed is exact by induction on the operations (`Computed.toPoly_eq`). A division succeeds
for a divisor of a single term only; the other divisors have errors of their own, and no sum or
product fails with one of these (`mul_eq_error`). A value is the sum of the terms at a number. At
zero the first term decides: the terms are summed from the lowest degree up, and a negative degree
divides by zero before anything else is computed.

Main result: `polynomials_are_exact`.
-/

namespace PuzzlePlayback.Calculator

/-! ## What arithmetic fails with -/

namespace Fraction

theorem ofQuotient_eq_error {num den : Int} {e : Failure} (h : ofQuotient num den = .error e) :
    (den = 0 ∧ e = .divisionByZero) ∨ (den ≠ 0 ∧ e = .overflow) := by
  unfold ofQuotient at h
  split at h
  · next hzero =>
    cases h
    exact .inl ⟨hzero, rfl⟩
  · next hne =>
    split at h
    · cases h
    · cases h
      exact .inr ⟨hne, rfl⟩

/-- Over the product of two denominators nothing but an overflow can happen. -/
theorem ofQuotient_den_mul_den_eq_error {a b : Fraction} {num : Int} {e : Failure}
    (h : ofQuotient num (a.den * b.den) = .error e) : e = .overflow := by
  have ha : (a.den : Int) ≠ 0 := Int.natCast_ne_zero.2 a.den_pos.ne'
  have hb : (b.den : Int) ≠ 0 := Int.natCast_ne_zero.2 b.den_pos.ne'
  rcases ofQuotient_eq_error h with ⟨hzero, _⟩ | ⟨_, he⟩
  · exact absurd hzero (mul_ne_zero ha hb)
  · exact he

theorem add_eq_error {a b : Fraction} {e : Failure} (h : a.add b = .error e) : e = .overflow :=
  ofQuotient_den_mul_den_eq_error h

theorem mul_eq_error {a b : Fraction} {e : Failure} (h : a.mul b = .error e) : e = .overflow :=
  ofQuotient_den_mul_den_eq_error h

theorem div_eq_error {a b : Fraction} {e : Failure} (h : a.div b = .error e) :
    (b.num = 0 ∧ e = .divisionByZero) ∨ e = .overflow := by
  rcases ofQuotient_eq_error h with ⟨hzero, he⟩ | ⟨_, he⟩
  · refine .inl ⟨?_, he⟩
    exact (mul_eq_zero.1 hzero).resolve_left (Int.natCast_ne_zero.2 a.den_pos.ne')
  · exact .inr he

theorem mulRepeated_eq_error {q product : Fraction} {n : Nat} {e : Failure}
    (h : q.mulRepeated n product = .error e) : e = .overflow := by
  induction n generalizing product with
  | zero => cases h
  | succ n ih =>
    rw [mulRepeated] at h
    split at h
    · exact ih h
    · next failure hfailure =>
      cases h
      exact mul_eq_error hfailure

end Fraction

namespace Laurent

open LaurentPolynomial AddMonoidAlgebra

/-- A fold fails with the failure of one of its steps. -/
theorem foldlM_eq_error {α β : Type} {f : β → α → Except Failure β} {items : List α} {b : β}
    {e : Failure} (h : items.foldlM f b = .error e) : ∃ a ∈ items, ∃ b, f b a = .error e := by
  induction items generalizing b with
  | nil => cases h
  | cons a items ih =>
    rw [List.foldlM_cons] at h
    rcases bind_eq_error h with hstep | ⟨next, _, hrest⟩
    · exact ⟨a, List.mem_cons_self, b, hstep⟩
    · obtain ⟨later, hmem, hfailure⟩ := ih hrest
      exact ⟨later, List.mem_cons_of_mem _ hmem, hfailure⟩

theorem addTerm_eq_error {p : Laurent} {degree : Int} {coef : Fraction} {e : Failure}
    (h : p.addTerm degree coef = .error e) : e = .overflow := by
  unfold addTerm at h
  split at h
  · exact Fraction.add_eq_error (map_eq_error h)
  · cases h

theorem addProduct_eq_error {sum : Laurent} {s t : Int × Fraction} {e : Failure}
    (h : sum.addProduct s t = .error e) : e = .overflow ∨ e = .exponentRange := by
  unfold addProduct at h
  split at h
  · rcases bind_eq_error h with hmul | ⟨coef, _, hadd⟩
    · exact .inl (Fraction.mul_eq_error hmul)
    · exact .inl (addTerm_eq_error hadd)
  · cases h
    exact .inr rfl

theorem mul_eq_error {p q : Laurent} {e : Failure} (h : p.mul q = .error e) :
    e = .overflow ∨ e = .exponentRange := by
  obtain ⟨s, _, sum, hrow⟩ := foldlM_eq_error h
  obtain ⟨t, _, sum, hproduct⟩ := foldlM_eq_error hrow
  exact addProduct_eq_error hproduct

/-! ## Stored terms -/

/-- The stored terms are those of `f`, each coefficient in lowest terms and none of them zero. -/
def Stores (p : Laurent) (f : ℚ[T;T⁻¹]) : Prop :=
  ∀ degree coef, (degree, coef) ∈ p.terms.entries ↔
    f.coeff degree ≠ 0 ∧ coef.num = (f.coeff degree).num ∧ coef.den = (f.coeff degree).den

theorem coeff_eq_of_mem {p : Laurent} {degree : Int} {coef : Fraction}
    (h : (degree, coef) ∈ p.terms.entries) : p.toPoly.coeff degree = coef.toRat := by
  rw [coeff_toPoly, coeff, p.terms.get?_eq_some_iff.2 h, Option.getD_some]

theorem stores_toPoly (p : Laurent) : p.Stores p.toPoly := by
  intro degree coef
  constructor
  · intro hmem
    refine ⟨(coeff_toPoly_ne_zero_iff p degree).2 ⟨coef, hmem⟩, ?_⟩
    rw [coeff_eq_of_mem hmem, Fraction.num_toRat, Fraction.den_toRat]
    exact ⟨rfl, rfl⟩
  · rintro ⟨hne, hnum, hden⟩
    obtain ⟨stored, hmem⟩ := (coeff_toPoly_ne_zero_iff p degree).1 hne
    rw [coeff_eq_of_mem hmem, Fraction.num_toRat] at hnum
    rw [coeff_eq_of_mem hmem, Fraction.den_toRat] at hden
    rwa [Fraction.ext hnum hden]

theorem toPoly_injective : Function.Injective toPoly := by
  intro p q h
  apply ext
  apply SortedMap.ext_get?
  intro degree
  have hstored : ∀ coef, (degree, coef) ∈ p.terms.entries ↔ (degree, coef) ∈ q.terms.entries := by
    intro coef
    rw [stores_toPoly p, h, ← stores_toPoly q]
  refine Option.ext fun coef => ?_
  rw [p.terms.get?_eq_some_iff, q.terms.get?_eq_some_iff, hstored]

/-- As many terms are stored as there are. -/
theorem card_support (p : Laurent) :
    p.toPoly.coeff.support.card = p.terms.entries.length := by
  have hsupport : p.toPoly.coeff.support = (p.terms.entries.map Prod.fst).toFinset := by
    ext degree
    rw [Finsupp.mem_support_iff, coeff_toPoly_ne_zero_iff, List.mem_toFinset]
    simp
  rw [hsupport, List.toFinset_card_of_nodup p.terms.nodup_keys, List.length_map]

/-! ## Divisors -/

/-- Division by a single term has neither of the errors about the number of terms. -/
theorem div_eq_error {p q : Laurent} {degree : Int} {coef : Fraction} {e : Failure}
    (hentries : q.terms.entries = [(degree, coef)]) (h : p.div q = .error e) :
    e = .overflow ∨ e = .exponentRange := by
  have hcoef : coef.num ≠ 0 := q.nonzero (degree, coef) (by simp [hentries])
  simp only [div, hentries] at h
  rcases bind_eq_error h with hinverse | ⟨inverse, _, h⟩
  · rcases Fraction.div_eq_error hinverse with ⟨hzero, _⟩ | he
    · exact absurd hzero hcoef
    · exact .inl he
  · split at h
    · exact mul_eq_error h
    · cases h
      exact .inr rfl

/-- A division by the number of terms of the divisor. -/
theorem div_cases (p q : Laurent) :
    (q.terms.entries.length = 0 ∧ p.div q = .error .divisionByZero) ∨
    (q.terms.entries.length = 1 ∧ ∀ e, p.div q = .error e → e = .overflow ∨ e = .exponentRange) ∨
    (2 ≤ q.terms.entries.length ∧ p.div q = .error .compoundDivisor) := by
  cases hentries : q.terms.entries with
  | nil => exact .inl ⟨rfl, by simp only [div, hentries]⟩
  | cons t rest =>
    cases rest with
    | nil => exact .inr (.inl ⟨rfl, fun e h => div_eq_error hentries h⟩)
    | cons u rest =>
      refine .inr (.inr ⟨?_, by simp only [div, hentries]⟩)
      simp

/-! ## Values at zero -/

theorem mulRepeated_zero (n : Nat) : Fraction.zero.mulRepeated n .zero = .ok .zero := by
  have hmul : Fraction.zero.mul .zero = .ok .zero := by decide
  induction n with
  | zero => rfl
  | succ n ih =>
    rw [Fraction.mulRepeated, hmul]
    exact ih

/-- Zero has no negative powers, whatever the coefficient. -/
theorem evalTerm_zero {degree : Int} (h : degree < 0) (coef : Fraction) :
    evalTerm .zero degree coef = .error .divisionByZero := by
  obtain ⟨n, hn⟩ : ∃ n, degree.natAbs = n + 1 := ⟨degree.natAbs - 1, by omega⟩
  have hmul : Fraction.one.mul .zero = .ok .zero := by decide
  have hdiv : Fraction.one.div .zero = .error .divisionByZero := by decide
  have hpower : Fraction.zero.mulRepeated degree.natAbs .one = .ok .zero := by
    rw [hn, Fraction.mulRepeated, hmul]
    exact mulRepeated_zero n
  rw [evalTerm, hpower]
  simp only [Bind.bind, Except.bind, if_pos h, hdiv]

theorem evalTerm_eq_error {x : Fraction} {degree : Int} {coef : Fraction} {e : Failure}
    (h : evalTerm x degree coef = .error e) :
    (e = .divisionByZero ∧ degree < 0 ∧ x.toRat = 0) ∨ e = .overflow := by
  rcases bind_eq_error h with hpower | ⟨power, hpower, h⟩
  · exact .inr (Fraction.mulRepeated_eq_error hpower)
  · dsimp only at h
    split at h
    · next hneg =>
      rcases bind_eq_error h with hinverse | ⟨inverse, _, h⟩
      · rcases Fraction.div_eq_error hinverse with ⟨hzero, he⟩ | he
        · refine .inl ⟨he, hneg, ?_⟩
          rw [← Fraction.toRat_eq_zero_iff, Fraction.toRat_mulRepeated hpower, Fraction.toRat_one,
            one_mul] at hzero
          exact pow_eq_zero_iff (by omega) |>.1 hzero
        · exact .inr he
      · exact .inr (Fraction.mul_eq_error h)
    · exact .inr (Fraction.mul_eq_error h)

/-- The terms are summed from the lowest degree up, so that a negative degree comes first. -/
theorem eval_eq_divisionByZero_iff (p : Laurent) (x : Fraction) :
    p.eval x = .error .divisionByZero ↔ x.toRat = 0 ∧ ∃ t ∈ p.terms.entries, t.1 < 0 := by
  constructor
  · intro h
    obtain ⟨t, hmem, total, hstep⟩ := foldlM_eq_error h
    rcases bind_eq_error hstep with hterm | ⟨term, _, hadd⟩
    · rcases evalTerm_eq_error hterm with ⟨_, hneg, hx⟩ | he
      · exact ⟨hx, t, hmem, hneg⟩
      · cases he
    · cases Fraction.add_eq_error hadd
  · rintro ⟨hx, t, hmem, hneg⟩
    obtain rfl : x = .zero :=
      Fraction.eq_zero_of_num_eq_zero (Fraction.toRat_eq_zero_iff.1 hx)
    have hsorted := p.terms.sorted
    rw [eval]
    cases hentries : p.terms.entries with
    | nil => simp [hentries] at hmem
    | cons first rest =>
      rw [hentries] at hmem hsorted
      have hfirst : first.1 < 0 := by
        rcases List.mem_cons.1 hmem with rfl | hlater
        · exact hneg
        · have hlt := (List.pairwise_cons.1 hsorted).1 t hlater
          exact (compare_lt_iff_lt.1 hlt).trans hneg
      rw [List.foldlM_cons, evalTerm_zero hfirst]
      rfl

/-! ## What is computed -/

/-- The polynomials that the calculator can compute, each with the Laurent polynomial that the same
operations give over the rationals. -/
inductive Computed : Laurent → ℚ[T;T⁻¹] → Prop
  | zero : Computed .zero 0
  | var : Computed .var (T 1)
  | constant (c : Fraction) : Computed (.constant c) (C c.toRat)
  | monomial (c : Fraction) (degree : Int) :
      Computed (.monomial c degree) (C c.toRat * T degree)
  | read {text x : String} {p : Laurent} : ofText text x = .ok p → Computed p p.toPoly
  | add {p q r : Laurent} {f g : ℚ[T;T⁻¹]} : Computed p f → Computed q g → p.add q = .ok r →
      Computed r (f + g)
  | sub {p q r : Laurent} {f g : ℚ[T;T⁻¹]} : Computed p f → Computed q g → p.sub q = .ok r →
      Computed r (f - g)
  | neg {p : Laurent} {f : ℚ[T;T⁻¹]} : Computed p f → Computed p.neg (-f)
  | mul {p q r : Laurent} {f g : ℚ[T;T⁻¹]} : Computed p f → Computed q g → p.mul q = .ok r →
      Computed r (f * g)
  | div {p q r : Laurent} {f g h : ℚ[T;T⁻¹]} : Computed p f → Computed q g → p.div q = .ok r →
      h * g = f → Computed r h

theorem Computed.toPoly_eq {p : Laurent} {f : ℚ[T;T⁻¹]} (h : Computed p f) : p.toPoly = f := by
  induction h with
  | zero => exact toPoly_zero
  | var => rw [Laurent.var, toPoly_monomial, Fraction.toRat_one]; rfl
  | constant c => rw [Laurent.constant, toPoly_monomial, single_eq_C]
  | monomial c degree => rw [toPoly_monomial, single_eq_C_mul_T]
  | read _ => rfl
  | add _ _ hr hp hq => rw [toPoly_add hr, hp, hq]
  | sub _ _ hr hp hq => rw [toPoly_sub hr, hp, hq]
  | neg _ hp => rw [toPoly_neg, hp]
  | mul _ _ hr hp hq => rw [toPoly_mul hr, hp, hq]
  | div _ _ hr hquotient hp hq =>
    -- The divisor is not zero, so there is one quotient only.
    obtain ⟨hne, hexact⟩ := toPoly_div hr
    rw [hq] at hne hexact
    exact mul_right_cancel₀ hne (hexact.trans (hp.trans hquotient.symm))

variable {p q r : Laurent} {f g : ℚ[T;T⁻¹]}

theorem Computed.stores (h : Computed p f) : p.Stores f := h.toPoly_eq ▸ stores_toPoly p

/-- Equal polynomials are those that denote the same. -/
theorem Computed.eq_iff (hp : Computed p f) (hq : Computed q g) : p = q ↔ f = g := by
  rw [← hp.toPoly_eq, ← hq.toPoly_eq]
  exact toPoly_injective.eq_iff.symm

/-- A division that succeeds has a quotient. -/
theorem Computed.exists_quotient (hp : Computed p f) (hq : Computed q g) (hr : p.div q = .ok r) :
    ∃ h, h * g = f ∧ Computed r h := by
  have hquotient : r.toPoly * g = f := by
    rw [← hp.toPoly_eq, ← hq.toPoly_eq]
    exact (toPoly_div hr).2
  exact ⟨r.toPoly, hquotient, hp.div hq hr hquotient⟩

/-- Every result is the exact one. -/
structure ExactResults (p q : Laurent) (f g : ℚ[T;T⁻¹]) : Prop where
  add : ∀ r, p.add q = .ok r → r.Stores (f + g)
  sub : ∀ r, p.sub q = .ok r → r.Stores (f - g)
  neg : p.neg.Stores (-f)
  mul : ∀ r, p.mul q = .ok r → r.Stores (f * g)
  div : ∀ r, p.div q = .ok r → ∃ h, h * g = f ∧ Computed r h ∧ r.Stores h

theorem Computed.exactResults (hp : Computed p f) (hq : Computed q g) : ExactResults p q f g where
  add _ hr := (hp.add hq hr).stores
  sub _ hr := (hp.sub hq hr).stores
  neg := hp.neg.stores
  mul _ hr := (hp.mul hq hr).stores
  div _ hr := by
    obtain ⟨h, hquotient, hcomputed⟩ := hp.exists_quotient hq hr
    exact ⟨h, hquotient, hcomputed, hcomputed.stores⟩

/-- Only a single term divides, and nothing else has the errors of the other divisors. -/
structure SingleTermDivides (p q : Laurent) (g : ℚ[T;T⁻¹]) : Prop where
  term : ∀ r, p.div q = .ok r → g.coeff.support.card = 1
  zero : p.div q = .error .divisionByZero ↔ g = 0
  compound : p.div q = .error .compoundDivisor ↔ 2 ≤ g.coeff.support.card

theorem singleTermDivides (p q : Laurent) : SingleTermDivides p q q.toPoly := by
  have hcard : q.toPoly.coeff.support.card = q.terms.entries.length := card_support q
  have hzero : q.toPoly = 0 ↔ q.toPoly.coeff.support.card = 0 := by
    rw [Finset.card_eq_zero, Finsupp.support_eq_empty]
    exact AddMonoidAlgebra.coeff_eq_zero.symm
  rcases div_cases p q with ⟨hlength, hdiv⟩ | ⟨hlength, hdiv⟩ | ⟨hlength, hdiv⟩
  · constructor
    · intro r hr
      rw [hdiv] at hr
      cases hr
    · rw [hzero, hcard]
      exact iff_of_true hdiv hlength
    · rw [hdiv, hcard, hlength]
      simp
  · have hother : ∀ e, p.div q = .error e → e = .overflow ∨ e = .exponentRange := hdiv
    constructor
    · intro _ _
      rw [hcard, hlength]
    · rw [hzero, hcard, hlength]
      exact iff_of_false (fun h => by simpa using hother _ h) one_ne_zero
    · rw [hcard, hlength]
      exact iff_of_false (fun h => by simpa using hother _ h) (by omega)
  · constructor
    · intro r hr
      rw [hdiv] at hr
      cases hr
    · rw [hzero, hcard, hdiv]
      exact iff_of_false nofun (by omega)
    · rw [hcard]
      exact iff_of_true hdiv hlength

theorem Computed.singleTermDivides (hq : Computed q g) (p : Laurent) :
    SingleTermDivides p q g := by
  rw [← hq.toPoly_eq]
  exact Laurent.singleTermDivides p q

/-- A value is the sum of the terms, and only negative powers of zero have none. -/
structure ExactValues (p : Laurent) (f : ℚ[T;T⁻¹]) : Prop where
  value : ∀ x v, p.eval x = .ok v → v.toRat = f.coeff.sum fun degree coef => coef * x.toRat ^ degree
  pole : ∀ x, p.eval x = .error .divisionByZero ↔
    x.toRat = 0 ∧ ∃ degree < 0, f.coeff degree ≠ 0

theorem Computed.exactValues (h : Computed p f) : ExactValues p f where
  value x v hv := by
    rw [toRat_eval hv, h.toPoly_eq]
    exact Finsupp.linearCombination_apply ℚ f.coeff
  pole x := by
    have hnegative : (∃ t ∈ p.terms.entries, t.1 < 0) ↔ ∃ degree < 0, f.coeff degree ≠ 0 := by
      simp only [← h.toPoly_eq, coeff_toPoly_ne_zero_iff]
      constructor
      · rintro ⟨t, hmem, hneg⟩
        exact ⟨t.1, hneg, t.2, hmem⟩
      · rintro ⟨degree, hneg, coef, hmem⟩
        exact ⟨(degree, coef), hmem, hneg⟩
    rw [eval_eq_divisionByZero_iff, hnegative]

/-- **Polynomials are exact and canonical.** Let `p` and `q` be computed by any operations, and let
these give `f` and `g` over the rationals. Then `p` stores the terms of `f` in lowest terms, and it
equals `q` exactly if `f` is `g`. Their sum, difference, product and quotient are exact where they
succeed, a division succeeds for a single term only, and the value of `p` at a number is the sum of
the terms of `f` there. -/
theorem polynomials_are_exact (hp : Computed p f) (hq : Computed q g) :
    p.Stores f ∧ (p = q ↔ f = g) ∧ ExactResults p q f g ∧ SingleTermDivides p q g ∧
      ExactValues p f :=
  ⟨hp.stores, hp.eq_iff hq, hp.exactResults hq, hq.singleTermDivides p, hp.exactValues⟩

/-- The polynomial `x + 3`. -/
def shifted : Laurent := Laurent.var.put 0 (.ofInt 3)

/-- The polynomial `1 + 3x^-1`. -/
def shiftedOverVar : Laurent := (monomial (.ofInt 3) (-1)).put 0 .one

theorem computed_shifted : Computed shifted (T 1 + C (Fraction.ofInt 3).toRat) :=
  .add .var (.constant (.ofInt 3)) (by decide +kernel)

theorem polynomials_are_exact_shifted :
    shifted.Stores (T 1 + C (Fraction.ofInt 3).toRat) ∧ shifted.div .var = .ok shiftedOverVar ∧
      ∃ h, h * T 1 = T 1 + C (Fraction.ofInt 3).toRat ∧ shiftedOverVar.Stores h ∧
        ∃ degree < 0, h.coeff degree ≠ 0 := by
  have hdiv : shifted.div .var = .ok shiftedOverVar := by decide +kernel
  have hpole : shiftedOverVar.eval .zero = .error .divisionByZero := by decide +kernel
  obtain ⟨hstores, _, hresults, _, _⟩ := polynomials_are_exact computed_shifted .var
  obtain ⟨h, hquotient, hcomputed, hstored⟩ := hresults.div _ hdiv
  obtain ⟨_, _, _, _, hvalues⟩ := polynomials_are_exact hcomputed .var
  exact ⟨hstores, hdiv, h, hquotient, hstored, ((hvalues.pole .zero).1 hpole).2⟩

end Laurent

end PuzzlePlayback.Calculator
