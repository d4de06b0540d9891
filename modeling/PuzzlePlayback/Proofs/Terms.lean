import PuzzlePlayback.Calculator.Laurent

/-!
# Computing with single terms

What the operations on polynomials come to on single terms. These are the computations that
canonical text asks for when it is read again: a fraction is the quotient of two constants, a term
is a constant times a power of the variable (`pow_var`), and terms are added from the highest
degree down, each below all that are there already (`add_below`).
-/

namespace PuzzlePlayback.Calculator

namespace Fraction

theorem num_ofInt {n : Int} (h : n.natAbs ≤ wordLimit) : (ofInt n).num = n := by
  show max (-(wordLimit : Int)) (min n wordLimit) = n
  omega

theorem ofInt_num {q : Fraction} (h : q.isInteger = true) : ofInt q.num = q :=
  ext (num_ofInt q.num_le) (beq_iff_eq.1 h).symm

theorem ofInt_neg {n : Int} (h : n.natAbs ≤ wordLimit) : (ofInt n).neg = ofInt (-n) := by
  refine ext ?_ rfl
  rw [num_ofInt (by rwa [Int.natAbs_neg])]
  exact congrArg Neg.neg (num_ofInt h)

theorem num_ofNat {n : Nat} (h : n ≤ wordLimit) : (ofInt n).num = n := num_ofInt h

theorem num_abs_nonneg (q : Fraction) : 0 ≤ q.abs.num := Int.natCast_nonneg _

/-- A fraction in lowest terms is the quotient of its parts. -/
theorem ofQuotient_self (q : Fraction) : ofQuotient q.num q.den = .ok q := by
  have hden : (q.den : Int) ≠ 0 := Int.natCast_ne_zero.2 (Nat.ne_of_gt q.den_pos)
  have hgcd : q.num.natAbs.gcd (q.den : Int).natAbs = 1 := q.reduced
  have hsign : (q.den : Int).sign = 1 := Int.sign_eq_one_of_pos (Int.natCast_pos.2 q.den_pos)
  have hnum : lowestNum q.num q.den = q.num := by
    rw [lowestNum, hgcd, Nat.div_one, hsign, Int.one_mul, Int.sign_mul_natAbs]
  have hlow : lowestDen q.num q.den = q.den := by
    rw [lowestDen, hgcd, Nat.div_one, Int.natAbs_natCast]
  rw [ofQuotient, dif_neg hden, dif_pos (by rw [hnum, hlow]; exact ⟨q.num_le, q.den_le⟩)]
  exact congrArg _ (ext hnum hlow)

theorem mul_one (q : Fraction) : q.mul one = .ok q := by
  show ofQuotient (q.num * 1) (q.den * 1) = .ok q
  rw [Int.mul_one, Int.mul_one, ofQuotient_self]

/-- One part of a fraction, of which its numerator counts how many it is. -/
def part (q : Fraction) : Fraction where
  num := 1
  den := q.den
  den_pos := q.den_pos
  reduced := Nat.coprime_one_left _
  num_le := by decide
  den_le := q.den_le

theorem one_div_den (q : Fraction) : one.div (ofInt q.den) = .ok q.part := by
  have hden : (ofInt q.den).num = q.den := num_ofNat q.den_le
  show ofQuotient (1 * 1) (1 * (ofInt q.den).num) = .ok q.part
  rw [hden, Int.one_mul, Int.one_mul]
  exact ofQuotient_self q.part

theorem num_mul_part (q : Fraction) : (ofInt q.num).mul q.part = .ok q := by
  show ofQuotient ((ofInt q.num).num * 1) (1 * q.den) = .ok q
  rw [num_ofInt q.num_le, Int.mul_one, Int.one_mul, ofQuotient_self]

end Fraction

namespace Laurent

theorem entries_monomial {coef : Fraction} (h : coef.num ≠ 0) (degree : Int) :
    (monomial coef degree).terms.entries = [(degree, coef)] := by
  rw [monomial, put, dif_neg h]
  rfl

theorem neg_monomial (coef : Fraction) (degree : Int) :
    (monomial coef degree).neg = monomial coef.neg degree := by
  by_cases h : coef.num = 0
  · have hneg : coef.neg.num = 0 := by simp [Fraction.neg, h]
    rw [monomial, monomial, put, put, dif_pos h, dif_pos hneg]
    rfl
  · have hneg : coef.neg.num ≠ 0 := by simpa [Fraction.neg] using h
    rw [monomial, monomial, put, put, dif_neg h, dif_neg hneg]
    rfl

/-- The product of two terms is one term. -/
theorem mul_monomial {a b c : Fraction} {d e : Int} (ha : a.num ≠ 0) (hb : b.num ≠ 0)
    (hfits : degreeFits (d + e) = true) (hc : a.mul b = .ok c) :
    (monomial a d).mul (monomial b e) = .ok (monomial c (d + e)) := by
  rw [mul, entries_monomial ha, entries_monomial hb]
  simp only [List.foldlM_cons, List.foldlM_nil, addProduct, hfits, hc, if_true]
  rfl

/-- A fraction is the quotient of its parts, as constants. -/
theorem div_constant {q : Fraction} (h : q.num ≠ 0) :
    (constant (.ofInt q.num)).div (constant (.ofInt q.den)) = .ok (constant q) := by
  have hnum : (Fraction.ofInt q.num).num ≠ 0 := by rwa [Fraction.num_ofInt q.num_le]
  have hden : (Fraction.ofInt q.den).num ≠ 0 := by
    rw [Fraction.num_ofNat q.den_le]
    exact Int.natCast_ne_zero.2 (Nat.ne_of_gt q.den_pos)
  have hmul := mul_monomial (d := 0) (e := 0) hnum Int.one_ne_zero rfl q.num_mul_part
  rw [div, constant, entries_monomial hden]
  simp only [Fraction.one_div_den]
  exact hmul

/-! ## Powers of the variable -/

theorem degreeFits_of_natAbs_le {degree : Int} (h : degree.natAbs ≤ 1000) :
    degreeFits degree = true := by
  simp only [degreeFits, Bool.and_eq_true, decide_eq_true_eq]
  omega

theorem mulRepeated_power {s : Int} (hs : s.natAbs ≤ 1) (n : Nat) {d : Int}
    (h : d.natAbs + n ≤ 1000) :
    (monomial .one s).mulRepeated n (monomial .one d) = .ok (monomial .one (d + n * s)) := by
  induction n generalizing d with
  | zero =>
    rw [mulRepeated]
    simp
  | succ n ih =>
    have hstep := mul_monomial (a := .one) (b := .one) (d := d) (e := s) (by decide) (by decide)
      (degreeFits_of_natAbs_le (by omega)) (Fraction.mul_one _)
    have hsum : d + (n + 1 : Nat) * s = d + s + n * s := by
      rw [Int.natCast_add, Int.add_mul]
      omega
    rw [mulRepeated, hstep, hsum]
    exact ih (by omega)

/-- A power of the variable is a term, up to the largest exponent. -/
theorem pow_var (n : Int) : var.pow n =
    if n.natAbs ≤ 16 then .ok (monomial .one n) else .error .exponentRange := by
  have hlimit : exponentLimit = 16 := rfl
  unfold pow
  by_cases hrange : n.natAbs ≤ 16
  · rw [if_neg (by omega), if_pos hrange]
    by_cases hn : n < 0
    · have hinverse : one.div var = .ok (monomial .one (-1)) := rfl
      have hpower := mulRepeated_power (s := -1) (by decide) n.natAbs (d := 0) (by omega)
      rw [show 0 + (n.natAbs : Int) * -1 = n by omega] at hpower
      simp only [if_pos hn, hinverse]
      exact hpower
    · have hpower := mulRepeated_power (s := 1) (by decide) n.natAbs (d := 0) (by omega)
      rw [show 0 + (n.natAbs : Int) * 1 = n by omega] at hpower
      simp only [if_neg hn]
      exact hpower
  · rw [if_pos (by omega), if_neg hrange]

/-! ## Adding terms from the highest degree down -/

/-- A term of a degree below all the others comes first. -/
theorem add_below {p q : Laurent} {degree : Int} {coef : Fraction}
    (hq : q.terms.entries = (degree, coef) :: p.terms.entries) :
    p.add (monomial coef degree) = .ok q := by
  have hcoef : coef.num ≠ 0 := q.nonzero (degree, coef) (by simp [hq])
  have hbelow : ∀ t ∈ p.terms.entries, compare degree t.1 = .lt := by
    have hsorted := q.terms.sorted
    rw [hq] at hsorted
    exact (List.pairwise_cons.1 hsorted).1
  have hget : p.terms.get? degree = none := by
    rw [Option.eq_none_iff_forall_ne_some]
    intro found hfound
    have := hbelow _ ((p.terms.get?_eq_some_iff).1 hfound)
    simp at this
  have hput : p.put degree coef = q := by
    rw [put, dif_neg hcoef]
    refine ext (SortedMap.ext ?_)
    show SortedMap.insertEntry degree coef p.terms.entries = q.terms.entries
    rw [hq]
    cases hentries : p.terms.entries with
    | nil => rfl
    | cons t rest =>
      have hlt : compare degree t.1 = .lt := hbelow t (by simp [hentries])
      rw [SortedMap.insertEntry, hlt]
  rw [add, entries_monomial hcoef]
  simp only [List.foldlM_cons, List.foldlM_nil, addTerm, hget, hput]
  rfl

end Laurent

end PuzzlePlayback.Calculator
