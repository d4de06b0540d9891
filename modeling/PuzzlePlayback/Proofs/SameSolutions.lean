import Mathlib.Algebra.Order.Ring.Unbundled.Basic
import PuzzlePlayback.Proofs.Solution
import PuzzlePlayback.Proofs.Values

/-!
# An operation on both sides keeps the solutions

The sides hold at a number if their values there stand in the relation between them
(`Sides.HoldsAt`). An operation that is carried out neither loses nor gains such a number among
those at which the sides and the operand are defined and the operand, if it scales, is not zero.

All four operations do the same to the two values: they multiply them by a factor `k` and add a
summand `d`. A positive factor keeps their order, a negative one turns it around
(`Relation.allows_affine`), and the sign is turned around exactly with it: of an equation it never
has to be, and the factor of an inequality is a constant.

Main result: `apply_keeps_solutions`.
-/

namespace PuzzlePlayback

open Calculator

theorem Calculator.Fraction.isNegative_iff (q : Fraction) :
    q.isNegative = true ↔ q.toRat < 0 := by
  have hden : (0 : ℚ) < q.den := Nat.cast_pos.2 q.den_pos
  rw [toRat, div_lt_iff₀ hden, zero_mul, Int.cast_lt_zero, isNegative, decide_eq_true_iff]

/-- What a relation says about two numbers. -/
theorem Relation.allows_cmp (r : Relation) (a b : ℚ) : r.allows (cmp a b) = true ↔
    match r with
    | .eq => a = b
    | .lt => a < b
    | .gt => b < a
    | .le => a ≤ b
    | .ge => b ≤ a := by
  cases r <;> simp [allows, cmp_eq_eq_iff, cmp_eq_lt_iff, cmp_eq_gt_iff]

/-- The same factor and the same summand on both sides keep a relation, if it is turned around for
a negative factor. -/
theorem Relation.allows_affine {k : ℚ} (hk : k ≠ 0) (r : Relation) (a b d : ℚ) :
    (if k < 0 then r.reversed else r).allows (cmp (a * k + d) (b * k + d)) =
      r.allows (cmp a b) := by
  rw [cmp_add_right]
  rcases hk.lt_or_gt with hneg | hpos
  · rw [if_pos hneg, cmp_mul_neg_right hneg, allows_reversed, cmp_swap]
  · rw [if_neg hpos.not_gt, cmp_mul_pos_right hpos]

namespace Solver

def Sides.DefinedAt (sides : Sides) (x : ℚ) : Prop :=
  sides.lhs.DefinedAt x ∧ sides.rhs.DefinedAt x

/-- The values of the sides at a number are in the relation. -/
def Sides.HoldsAt (sides : Sides) (x : ℚ) : Prop :=
  sides.sign.allows (cmp (sides.lhs.value x) (sides.rhs.value x)) = true

variable {sides next : Sides} {sign : Relation} {operator : Operator} {operand : Laurent} {x : ℚ}

/-! ## The sign -/

/-- An inequality is scaled by a constant only. -/
theorem constant_of_scaledSign (h : scaledSign sides.sign operand = .ok sign)
    (hne : sides.sign ≠ .eq) : ∃ c, operand.constant? = some c ∧
      sign = if c.toRat < 0 then sides.sign.reversed else sides.sign := by
  rw [scaledSign, if_neg hne] at h
  split at h
  · cases h
  · next c hc =>
    cases h
    refine ⟨c, hc, ?_⟩
    simp only [Fraction.isNegative_iff]

/-- The sign is turned around for an operand that is negative, wherever it is looked at. -/
theorem scaledSign_eq_ok (h : scaledSign sides.sign operand = .ok sign) (x : ℚ) :
    sign = if operand.value x < 0 then sides.sign.reversed else sides.sign := by
  by_cases heq : sides.sign = .eq
  · rw [scaledSign, if_pos heq] at h
    cases h
    rw [heq, Relation.reversed, ite_self]
  · obtain ⟨c, hc, hsign⟩ := constant_of_scaledSign h heq
    rw [hsign, Laurent.value_of_constant hc]

/-! ## The sides -/

theorem onBoth_eq_ok {operation : Laurent → Laurent → Except Failure Laurent}
    (h : onBoth operation sides operand = .ok next) :
    operation sides.lhs operand = .ok next.lhs ∧ operation sides.rhs operand = .ok next.rhs ∧
      next.sign = sides.sign := by
  unfold onBoth at h
  split at h
  · cases h
  · next l hl =>
    split at h
    · cases h
    · next r hr =>
      cases h
      exact ⟨hl, hr, rfl⟩

/-- An operation that multiplies the value of either side by `k` and adds `d` keeps the
solutions. -/
theorem holdsAt_onBoth {operation : Laurent → Laurent → Except Failure Laurent} {k : ℚ} (d : ℚ)
    (hk : k ≠ 0) (hsign : sign = if k < 0 then sides.sign.reversed else sides.sign)
    (hoperation : ∀ p r, operation p operand = .ok r → p.DefinedAt x →
      r.DefinedAt x ∧ r.value x = p.value x * k + d)
    (h : onBoth operation { sides with sign } operand = .ok next) (hx : sides.DefinedAt x) :
    next.DefinedAt x ∧ (next.HoldsAt x ↔ sides.HoldsAt x) := by
  obtain ⟨hl, hr, hkept⟩ := onBoth_eq_ok h
  obtain ⟨hlhs, hlvalue⟩ := hoperation _ _ hl hx.1
  obtain ⟨hrhs, hrvalue⟩ := hoperation _ _ hr hx.2
  refine ⟨⟨hlhs, hrhs⟩, ?_⟩
  rw [Sides.HoldsAt, hlvalue, hrvalue, hkept, hsign, Relation.allows_affine hk, Sides.HoldsAt]

/-! ## Operations -/

/-- What was computed when an operation was carried out. -/
inductive Applied (sides : Sides) (operand : Laurent) (next : Sides) : Operator → Prop
  | added : onBoth Laurent.add sides operand = .ok next → Applied sides operand next .add
  | subtracted : onBoth Laurent.sub sides operand = .ok next → Applied sides operand next .subtract
  | multiplied {sign : Relation} : scaledSign sides.sign operand = .ok sign →
      operand.constant? ≠ some .zero → onBoth Laurent.mul { sides with sign } operand = .ok next →
      Applied sides operand next .multiply
  | divided {sign : Relation} : scaledSign sides.sign operand = .ok sign →
      onBoth Laurent.div { sides with sign } operand = .ok next →
      Applied sides operand next .divide

theorem applied_of_apply (h : sides.apply operator operand = .ok next) :
    Applied sides operand next operator := by
  unfold Sides.apply at h
  cases operator with
  | add => exact .added h
  | subtract => exact .subtracted h
  | multiply =>
    simp only at h
    split at h
    · cases h
    · next sign hsign =>
      split at h
      · cases h
      · next hzero => exact .multiplied hsign hzero h
  | divide =>
    simp only at h
    split at h
    · cases h
    · next sign hsign => exact .divided hsign h

/-- Every operation multiplies the values of the sides by a factor and adds a summand. -/
theorem Applied.holdsAt (h : Applied sides operand next operator) (hx : sides.DefinedAt x)
    (hoperand : operand.DefinedAt x)
    (hne : operator = .multiply ∨ operator = .divide → operand.value x ≠ 0) :
    next.DefinedAt x ∧ (next.HoldsAt x ↔ sides.HoldsAt x) := by
  have hpositive : sides.sign = if (1 : ℚ) < 0 then sides.sign.reversed else sides.sign :=
    (if_neg zero_le_one.not_gt).symm
  cases h with
  | added h =>
    apply holdsAt_onBoth (operand.value x) one_ne_zero hpositive _ h hx
    intro p r hr hp
    rw [Laurent.value_add hr, mul_one]
    exact ⟨Laurent.definedAt_add hr hp hoperand, rfl⟩
  | subtracted h =>
    apply holdsAt_onBoth (-operand.value x) one_ne_zero hpositive _ h hx
    intro p r hr hp
    rw [Laurent.value_sub hr, mul_one, sub_eq_add_neg]
    exact ⟨Laurent.definedAt_sub hr hp hoperand, rfl⟩
  | multiplied hsign _ h =>
    apply holdsAt_onBoth 0 (hne (.inl rfl)) (scaledSign_eq_ok hsign x) _ h hx
    intro p r hr hp
    rw [Laurent.value_mul hr hp hoperand, add_zero]
    exact ⟨Laurent.definedAt_mul hr hp hoperand, rfl⟩
  | @divided sign hsign h =>
    -- The factor is the inverse of the operand, which has its sign.
    have hvalue : operand.value x ≠ 0 := hne (.inr rfl)
    have hturned : sign =
        if (operand.value x)⁻¹ < 0 then sides.sign.reversed else sides.sign := by
      simp only [inv_lt_zero, scaledSign_eq_ok hsign x]
    apply holdsAt_onBoth 0 (inv_ne_zero hvalue) hturned _ h hx
    intro p r hr hp
    rw [add_zero, eq_mul_inv_iff_mul_eq₀ hvalue, Laurent.value_div hr hp hoperand hvalue]
    exact ⟨Laurent.definedAt_div hr hp hvalue, rfl⟩

/-- An inequality is scaled by a constant that is not zero. -/
theorem Applied.factor (h : Applied sides operand next operator) (hne : sides.sign ≠ .eq)
    (hscales : operator = .multiply ∨ operator = .divide) :
    ∃ c, operand.constant? = some c ∧ c.toRat ≠ 0 ∧
      next.sign = if c.toRat < 0 then sides.sign.reversed else sides.sign := by
  cases h with
  | added _ => simp at hscales
  | subtracted _ => simp at hscales
  | multiplied hsign hzero h =>
    obtain ⟨c, hc, hturned⟩ := constant_of_scaledSign hsign hne
    refine ⟨c, hc, ?_, (onBoth_eq_ok h).2.2.trans hturned⟩
    intro hczero
    apply hzero
    rw [hc, Fraction.eq_zero_of_num_eq_zero (Fraction.toRat_eq_zero_iff.1 hczero)]
  | divided hsign h =>
    obtain ⟨c, hc, hturned⟩ := constant_of_scaledSign hsign hne
    obtain ⟨hlhs, _, hkept⟩ := onBoth_eq_ok h
    exact ⟨c, hc, (toPoly_div_constant hc hlhs).1, hkept.trans hturned⟩

/-- **Operations on both sides keep the solutions.** Where the sides and the operand are defined,
and the operand is not zero if it scales, the new sides are defined and hold exactly if the old ones
do. An inequality is only scaled by a constant that is not zero, and turned around exactly if the
constant is negative. -/
theorem apply_keeps_solutions (h : sides.apply operator operand = .ok next) :
    (∀ x : ℚ, sides.DefinedAt x → operand.DefinedAt x →
      (operator = .multiply ∨ operator = .divide → operand.value x ≠ 0) →
        next.DefinedAt x ∧ (next.HoldsAt x ↔ sides.HoldsAt x)) ∧
    (sides.sign ≠ .eq → operator = .multiply ∨ operator = .divide →
      ∃ c, operand.constant? = some c ∧ c.toRat ≠ 0 ∧
        next.sign = if c.toRat < 0 then sides.sign.reversed else sides.sign) := by
  have happlied := applied_of_apply h
  exact ⟨fun x hx hoperand hne => happlied.holdsAt hx hoperand hne, happlied.factor⟩

/-- The inequality `2x + 3 < 7`. -/
def doubledBelow : Sides :=
  ⟨(Laurent.monomial (.ofInt 2) 1).put 0 (.ofInt 3), .constant (.ofInt 7), .lt⟩

/-- The inequality `-4x - 6 > -14`. -/
def doubledAbove : Sides :=
  ⟨(Laurent.monomial (.ofInt (-4)) 1).put 0 (.ofInt (-6)), .constant (.ofInt (-14)), .gt⟩

theorem apply_doubledBelow :
    doubledBelow.apply .multiply (.constant (.ofInt (-2))) = .ok doubledAbove := by
  decide +kernel

theorem holdsAt_doubledBelow (x : ℚ) : doubledBelow.HoldsAt x ↔ 2 * x + 3 < 7 := by
  have hlhs : doubledBelow.lhs.terms.entries = [(0, .ofInt 3), (1, .ofInt 2)] := by
    decide +kernel
  have hrhs : doubledBelow.rhs.terms.entries = [(0, .ofInt 7)] := by decide +kernel
  have hsign : doubledBelow.sign = .lt := rfl
  rw [Sides.HoldsAt, Relation.allows_cmp, hsign]
  simp [Laurent.value, hlhs, hrhs, Fraction.toRat, Fraction.ofInt, wordLimit, add_comm]

theorem apply_keeps_solutions_doubledBelow :
    doubledBelow.apply .multiply (.constant (.ofInt (-2))) = .ok doubledAbove ∧
      (∀ x : ℚ, doubledAbove.HoldsAt x ↔ 2 * x + 3 < 7) ∧
      doubledAbove.sign = doubledBelow.sign.reversed := by
  have hconstant : (Laurent.constant (.ofInt (-2))).constant? = some (.ofInt (-2)) := by
    decide +kernel
  have hne : (Fraction.ofInt (-2)).toRat ≠ 0 := mt Fraction.toRat_eq_zero_iff.1 (by decide)
  have hneg : (Fraction.ofInt (-2)).toRat < 0 := (Fraction.isNegative_iff _).1 (by decide)
  obtain ⟨hsolutions, hsign⟩ := apply_keeps_solutions apply_doubledBelow
  refine ⟨apply_doubledBelow, fun x => ?_, ?_⟩
  · rw [← holdsAt_doubledBelow]
    refine (hsolutions x ?_ ?_ fun _ => ?_).2
    · constructor <;> intro _ <;> decide +kernel
    · intro _
      decide +kernel
    · rwa [Laurent.value_of_constant hconstant]
  · obtain ⟨c, hc, _, hturned⟩ := hsign (by decide) (.inl rfl)
    rw [hconstant] at hc
    cases hc
    rw [hturned, if_pos hneg]

end Solver

end PuzzlePlayback
