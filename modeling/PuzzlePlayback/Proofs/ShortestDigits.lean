import Mathlib.Algebra.Order.Field.Power
import Mathlib.Algebra.Order.Floor.Semifield
import Mathlib.Data.Rat.Floor
import Mathlib.Tactic.FieldSimp
import Mathlib.Tactic.Linarith
import Mathlib.Tactic.Positivity
import PuzzlePlayback.Decimal.Shortest

/-!
# Few digits that identify a double

A decimal rounds to a double if no other double is as close, or if one is and the double has the
even significand of the two (`RoundsTo`). The interval that is searched has only such numbers
(`Canonical.rounds_of_holds`), because of the gaps between doubles (`Canonical.gap`).

The search goes through grids of decimals from coarse to fine and ends at the first one with a point
in the interval (`Interval.search_holds`). The finest grid is finer than the interval is wide, so it
has a point (`Canonical.exists_holds_finest`); the multiples of one are among the grids that are
tried, so a whole number gets no decimals.

Main result: `shortest_spec`.
-/

namespace PuzzlePlayback.Decimal

/-! ## Powers as quotients -/

theorem powerOfTwo_pos (e : Int) : 0 < (powerOfTwo e).1 ∧ 0 < (powerOfTwo e).2 := by
  unfold powerOfTwo
  split
  · exact ⟨Nat.two_pow_pos _, Nat.one_pos⟩
  · exact ⟨Nat.one_pos, Nat.two_pow_pos _⟩

theorem powerOfTwo_div (e : Int) : ((powerOfTwo e).1 : ℚ) / (powerOfTwo e).2 = 2 ^ e := by
  unfold powerOfTwo
  split
  · next h =>
    obtain ⟨n, rfl⟩ := Int.eq_ofNat_of_zero_le h
    simp
  · next h =>
    obtain ⟨n, rfl⟩ : ∃ n : Nat, e = -n := ⟨(-e).toNat, by omega⟩
    simp

theorem powerOfTen_pos (e : Int) : 0 < (powerOfTen e).1 ∧ 0 < (powerOfTen e).2 := by
  unfold powerOfTen
  split
  · exact ⟨Nat.pow_pos (by decide), Nat.one_pos⟩
  · exact ⟨Nat.one_pos, Nat.pow_pos (by decide)⟩

theorem powerOfTen_div (e : Int) : ((powerOfTen e).1 : ℚ) / (powerOfTen e).2 = 10 ^ e := by
  unfold powerOfTen
  split
  · next h =>
    obtain ⟨n, rfl⟩ := Int.eq_ofNat_of_zero_le h
    simp
  · next h =>
    obtain ⟨n, rfl⟩ : ∃ n : Nat, e = -n := ⟨(-e).toNat, by omega⟩
    simp

/-! ## Intervals -/

namespace Interval

variable {i : Interval} {tie : Tie}

/-- A number is in the interval. -/
def Holds (i : Interval) (v : ℚ) : Prop :=
  if i.closed then (i.low / i.den : ℚ) ≤ v ∧ v ≤ i.high / i.den
  else (i.low / i.den : ℚ) < v ∧ v < i.high / i.den

theorem contains_iff (hden : 0 < i.den) {n scale : Nat} (hscale : 0 < scale) :
    i.contains n scale = true ↔ i.Holds (n / scale) := by
  have hden : (0 : ℚ) < i.den := Nat.cast_pos.2 hden
  have hscale : (0 : ℚ) < scale := Nat.cast_pos.2 hscale
  unfold contains Holds
  split <;> rw [Bool.and_eq_true, decide_eq_true_iff, decide_eq_true_iff]
  · rw [div_le_div_iff₀ hden hscale, div_le_div_iff₀ hscale hden]
    norm_cast
  · rw [div_lt_div_iff₀ hden hscale, div_lt_div_iff₀ hscale hden]
    norm_cast

theorem Holds.between {a b v : ℚ} (ha : i.Holds a) (hb : i.Holds b) (hav : a ≤ v) (hvb : v ≤ b) :
    i.Holds v := by
  unfold Holds at *
  split at ha
  · rw [if_pos ‹_›] at *
    exact ⟨ha.1.trans hav, hvb.trans hb.2⟩
  · rw [if_neg ‹_›] at *
    exact ⟨ha.1.trans_le hav, hvb.trans_lt hb.2⟩

/-! ## Grids -/

/-- The points of a grid, as they are tested. -/
theorem contains_grid_iff (hden : 0 < i.den) (n : Nat) (exponent : Int) :
    i.contains (n * (powerOfTen exponent).1) (powerOfTen exponent).2 = true ↔
      i.Holds (n * 10 ^ exponent) := by
  rw [contains_iff hden (powerOfTen_pos exponent).2, Nat.cast_mul, mul_div_assoc, powerOfTen_div]

theorem holds_of_onGrid (hden : 0 < i.den) {exponent : Int} {n : Nat}
    (h : i.onGrid tie exponent = some n) : i.Holds (n * 10 ^ exponent) := by
  rw [← contains_grid_iff hden]
  unfold onGrid at h
  dsimp only at h
  split at h
  · next hup =>
    obtain rfl := Option.some.inj h
    exact (Bool.and_eq_true_iff.1 hup).1
  · split at h
    · next hdown =>
      obtain rfl := Option.some.inj h
      exact hdown
    · cases h

/-- The value is between two points of a grid. -/
theorem value_between (hden : 0 < i.den) (exponent : Int) :
    let down := i.value * (powerOfTen exponent).2 / (i.den * (powerOfTen exponent).1)
    (down * 10 ^ exponent : ℚ) ≤ i.value / i.den ∧
      (i.value / i.den : ℚ) ≤ (down + 1 : Nat) * 10 ^ exponent := by
  intro down
  have hten : (0 : ℚ) < 10 ^ exponent := by positivity
  have hden : (0 : ℚ) < i.den := Nat.cast_pos.2 hden
  obtain ⟨hp, hq⟩ := powerOfTen_pos exponent
  have hscaled : (i.value / i.den : ℚ) / 10 ^ exponent =
      ((i.value * (powerOfTen exponent).2 : Nat) : ℚ) /
        (i.den * (powerOfTen exponent).1 : Nat) := by
    rw [← powerOfTen_div]
    push_cast
    field_simp
  have hfloor : down = ⌊(i.value / i.den : ℚ) / 10 ^ exponent⌋₊ := by
    rw [hscaled, Nat.floor_div_eq_div]
  constructor
  · rw [← le_div_iff₀ hten, hfloor]
    exact Nat.floor_le (by positivity)
  · rw [← div_le_iff₀ hten, hfloor, Nat.cast_add_one]
    exact (Nat.lt_floor_add_one _).le

/-- A grid with a point in the interval has one next to the value. -/
theorem exists_onGrid (hden : 0 < i.den) (hvalue : i.Holds (i.value / i.den)) {exponent : Int}
    {n : Nat} (h : i.Holds (n * 10 ^ exponent)) :
    ∃ digits, i.onGrid tie exponent = some digits := by
  have hten : (0 : ℚ) < 10 ^ exponent := by positivity
  obtain ⟨hlow, hhigh⟩ := value_between (i := i) hden exponent
  unfold onGrid
  dsimp only
  generalize i.value * (powerOfTen exponent).2 / (i.den * (powerOfTen exponent).1) = down
    at hlow hhigh
  have hneighbour : i.contains (down * (powerOfTen exponent).1) (powerOfTen exponent).2 = true ∨
      i.contains ((down + 1) * (powerOfTen exponent).1) (powerOfTen exponent).2 = true := by
    rw [contains_grid_iff hden, contains_grid_iff hden]
    rcases Nat.lt_or_ge down n with hn | hn
    · have hle : ((down + 1 : Nat) : ℚ) ≤ n := Nat.cast_le.2 hn
      exact .inr (hvalue.between h hhigh (mul_le_mul_of_nonneg_right hle hten.le))
    · have hle : (n : ℚ) ≤ down := Nat.cast_le.2 hn
      exact .inl (h.between hvalue (mul_le_mul_of_nonneg_right hle hten.le) hlow)
  split
  · exact ⟨_, rfl⟩
  · next hup =>
    split
    · exact ⟨_, rfl⟩
    · next hdown =>
      have hfits := hneighbour.resolve_left hdown
      exact absurd (by simp [hfits, hdown]) hup

/-- **The search ends in the interval**, on a grid that is no finer than one that has a point
there. -/
theorem search_holds (tie : Tie) (hden : 0 < i.den) (hvalue : i.Holds (i.value / i.den))
    {grid : Int} {n : Nat} (hgrid : i.Holds (n * 10 ^ grid)) {exponent : Int} {fuel : Nat}
    (hlow : exponent < grid + fuel) (hhigh : grid ≤ exponent) :
    grid ≤ (i.search tie exponent fuel).exponent ∧
      i.Holds ((i.search tie exponent fuel).digits *
        10 ^ (i.search tie exponent fuel).exponent) := by
  induction fuel generalizing exponent with
  | zero => omega
  | succ fuel ih =>
    unfold search
    split
    · next digits hdigits => exact ⟨hhigh, holds_of_onGrid hden hdigits⟩
    · next hnone =>
      have hne : grid ≠ exponent := by
        rintro rfl
        obtain ⟨digits, hdigits⟩ : ∃ digits, i.onGrid tie grid = some digits :=
          exists_onGrid hden hvalue hgrid
        rw [hnone] at hdigits
        cases hdigits
      exact ih (by omega) (by omega)

/-! ## The interval of a double -/

theorem den_ofBinary_pos (m : Nat) (e : Int) : 0 < (ofBinary m e).den :=
  (powerOfTwo_pos (e - 2)).2

/-- A number of quarters of the last digit. -/
theorem quarters (e : Int) (n : Nat) : ((n * (powerOfTwo (e - 2)).1 : Nat) : ℚ) /
    (powerOfTwo (e - 2)).2 = n * (2 ^ e / 4) := by
  rw [Nat.cast_mul, mul_div_assoc, powerOfTwo_div, zpow_sub₀ (by norm_num)]
  norm_num

theorem value_ofBinary (m : Nat) (e : Int) :
    ((ofBinary m e).value / (ofBinary m e).den : ℚ) = m * 2 ^ e := by
  refine (quarters e (4 * m)).trans ?_
  push_cast
  ring

end Interval

/-! ## Gaps between doubles -/

/-- The significand and the exponent of a double above zero: as many digits as it can have. -/
structure Canonical (m : Nat) (e : Int) : Prop where
  pos : 0 < m
  size : m < 2 ^ 53
  least : -1074 ≤ e
  normal : -1074 < e → 2 ^ 52 ≤ m

/-- The number is a double, or would be one if there were no greatest exponent. -/
def Representable (q : ℚ) : Prop :=
  ∃ m e : Int, m.natAbs < 2 ^ 53 ∧ -1074 ≤ e ∧ q = m * 2 ^ e

/-- A number is rounded to the double `m * 2 ^ e`: no other one is as close, or one is and the
significand is even. -/
def RoundsTo (v : ℚ) (m e : Int) : Prop :=
  ∀ q, Representable q → q ≠ m * 2 ^ e →
    |v - m * 2 ^ e| < |v - q| ∨ |v - m * 2 ^ e| = |v - q| ∧ m % 2 = 0

theorem RoundsTo.neg {v : ℚ} {m e : Int} (h : RoundsTo v m e) : RoundsTo (-v) (-m) e := by
  rintro q ⟨n, k, hn, hk, rfl⟩ hne
  have hdistance (a b : ℚ) : |-a - b| = |a - -b| := by
    rw [← abs_neg (-a - b)]
    ring_nf
  have hother : ((-n : Int) : ℚ) * 2 ^ k ≠ m * 2 ^ e := fun heq => hne (by
    push_cast at heq ⊢
    linarith)
  have hclose := h _ ⟨-n, k, by rwa [Int.natAbs_neg], hk, rfl⟩ hother
  rw [hdistance, hdistance]
  push_cast at hclose ⊢
  rw [neg_mul, neg_neg, ← neg_mul]
  exact hclose.imp_right fun heq => ⟨heq.1, by omega⟩

namespace Canonical

variable {m : Nat} {e : Int}

/-- How far the next double below is: closer below a power of two. -/
def gapBelow (m : Nat) (e : Int) : ℚ :=
  if m = leastNormal ∧ leastExponent < e then 2 ^ e / 2 else 2 ^ e

theorem gapBelow_pos (m : Nat) (e : Int) : 0 < gapBelow m e ∧ gapBelow m e ≤ 2 ^ e := by
  have htwo : (0 : ℚ) < 2 ^ e := by positivity
  unfold gapBelow
  split <;> constructor <;> linarith

/-- A multiple of the last digit is a digit away. -/
theorem gap_of_multiple {n : Int} (hne : (n * 2 ^ e : ℚ) ≠ m * 2 ^ e) :
    (m * 2 ^ e + 2 ^ e : ℚ) ≤ n * 2 ^ e ∨ (n * 2 ^ e : ℚ) ≤ m * 2 ^ e - 2 ^ e := by
  have htwo : (0 : ℚ) ≤ 2 ^ e := by positivity
  rcases lt_trichotomy (m : Int) n with hlt | heq | hgt
  · have hstep : ((m + 1 : Int) : ℚ) ≤ n := Int.cast_le.2 hlt
    have hmul := mul_le_mul_of_nonneg_right hstep htwo
    push_cast at hmul
    exact .inl (by linarith)
  · exact absurd (by rw [← heq, Int.cast_natCast]) hne
  · have hstep : ((n + 1 : Int) : ℚ) ≤ (m : Int) := Int.cast_le.2 hgt
    have hmul := mul_le_mul_of_nonneg_right hstep htwo
    push_cast at hmul
    exact .inr (by linarith)

/-- A number with smaller digits is in a lower binade. -/
theorem gap_of_finer (h : Canonical m e) {n k : Int} (hn : n.natAbs < 2 ^ 53) (hk : -1074 ≤ k)
    (hke : k < e) : (n * 2 ^ k : ℚ) ≤ m * 2 ^ e - gapBelow m e := by
  have hhalf : (2 : ℚ) ^ k ≤ 2 ^ e / 2 := by
    rw [le_div_iff₀ (by norm_num), ← zpow_add_one₀ (by norm_num)]
    exact zpow_le_zpow_right₀ (by norm_num) (by omega)
  have hn : (n : ℚ) ≤ 2 ^ 53 - 1 := by
    have hle : n ≤ 2 ^ 53 - 1 := by omega
    exact_mod_cast hle
  have hlow : (n * 2 ^ k : ℚ) ≤ (2 ^ 53 - 1) * (2 ^ e / 2) := by
    calc (n * 2 ^ k : ℚ) ≤ (2 ^ 53 - 1) * 2 ^ k := mul_le_mul_of_nonneg_right hn (by positivity)
      _ ≤ (2 ^ 53 - 1) * (2 ^ e / 2) := mul_le_mul_of_nonneg_left hhalf (by norm_num)
  have hleast : leastExponent < e := show -1074 < e by omega
  have hnormal := h.normal hleast
  unfold gapBelow
  split
  · next hpower =>
    rw [hpower.1, show leastNormal = 2 ^ 52 from rfl]
    push_cast
    linarith
  · next hpower =>
    have hne : m ≠ 2 ^ 52 := fun heq => hpower ⟨heq, hleast⟩
    have hm : ((2 ^ 52 + 1 : Nat) : ℚ) ≤ m := Nat.cast_le.2 (by omega)
    have htwo : (0 : ℚ) ≤ 2 ^ e := by positivity
    have hmul := mul_le_mul_of_nonneg_right hm htwo
    push_cast at hmul
    linarith

/-- **Doubles have gaps between them.** -/
theorem gap (h : Canonical m e) {q : ℚ} (hq : Representable q) (hne : q ≠ m * 2 ^ e) :
    m * 2 ^ e + 2 ^ e ≤ q ∨ q ≤ m * 2 ^ e - gapBelow m e := by
  obtain ⟨n, k, hn, hk, rfl⟩ := hq
  rcases le_or_gt e k with hek | hke
  · obtain ⟨s, rfl⟩ : ∃ s : Nat, k = e + s := ⟨(k - e).toNat, by omega⟩
    have hscaled : (n * 2 ^ (e + s : Int) : ℚ) = (n * 2 ^ s : Int) * 2 ^ e := by
      rw [zpow_add₀ (by norm_num), zpow_natCast]
      push_cast
      ring
    rw [hscaled] at hne ⊢
    obtain ⟨-, hle⟩ := gapBelow_pos m e
    exact (gap_of_multiple hne).imp_right fun hbelow => hbelow.trans (by linarith)
  · exact .inr (h.gap_of_finer hn hk hke)

/-! ## Rounding to a double -/

/-- The interval reaches half of the way to the next doubles. -/
theorem holds_ofBinary_iff (h : Canonical m e) (v : ℚ) : (Interval.ofBinary m e).Holds v ↔
    if m % 2 = 0 then m * 2 ^ e - gapBelow m e / 2 ≤ v ∧ v ≤ m * 2 ^ e + 2 ^ e / 2
    else m * 2 ^ e - gapBelow m e / 2 < v ∧ v < m * 2 ^ e + 2 ^ e / 2 := by
  have hhigh : ((Interval.ofBinary m e).high / (Interval.ofBinary m e).den : ℚ) =
      m * 2 ^ e + 2 ^ e / 2 := by
    refine (Interval.quarters e (4 * m + 2)).trans ?_
    push_cast
    ring
  have hlow : ((Interval.ofBinary m e).low / (Interval.ofBinary m e).den : ℚ) =
      m * 2 ^ e - gapBelow m e / 2 := by
    refine (Interval.quarters e _).trans ?_
    have hpos := h.pos
    unfold gapBelow
    split
    · rw [Nat.cast_sub (by omega)]
      push_cast
      ring
    · rw [Nat.cast_sub (by omega)]
      push_cast
      ring
  unfold Interval.Holds
  rw [hlow, hhigh]
  simp only [Interval.ofBinary, decide_eq_true_iff]

theorem holds_value (h : Canonical m e) : (Interval.ofBinary m e).Holds (m * 2 ^ e) := by
  have htwo : (0 : ℚ) < 2 ^ e := by positivity
  obtain ⟨hpos, -⟩ := gapBelow_pos m e
  rw [holds_ofBinary_iff h]
  split <;> constructor <;> linarith

/-- **What is in the interval is rounded to the double.** -/
theorem rounds_of_holds (h : Canonical m e) {v : ℚ} (hv : (Interval.ofBinary m e).Holds v) :
    RoundsTo v m e := by
  intro q hq hne
  obtain ⟨hpos, hle⟩ := gapBelow_pos m e
  rw [holds_ofBinary_iff h] at hv
  rw [Int.cast_natCast] at hne ⊢
  have hgap := h.gap hq hne
  generalize (m * 2 ^ e : ℚ) = value at *
  generalize gapBelow m e = below at *
  generalize (2 : ℚ) ^ e = above at *
  have hnear := abs_cases (v - value)
  have hfar := abs_cases (v - q)
  split at hv
  · next heven =>
    rw [← le_iff_lt_or_eq.trans (or_congr_right (and_iff_left (by omega)).symm)]
    rcases hgap with hgap | hgap <;> rcases hnear with hnear | hnear <;>
      rcases hfar with hfar | hfar <;> linarith
  · left
    rcases hgap with hgap | hgap <;> rcases hnear with hnear | hnear <;>
      rcases hfar with hfar | hfar <;> linarith

/-- A grid with points closer than half of the way to the next double above has one in the
interval. -/
theorem exists_holds_of_fine (h : Canonical m e) {grid : Int}
    (hfine : (10 : ℚ) ^ grid < 2 ^ e / 2) :
    ∃ n : Nat, (Interval.ofBinary m e).Holds (n * 10 ^ grid) := by
  have hten : (0 : ℚ) < 10 ^ grid := by positivity
  obtain ⟨hpos, -⟩ := gapBelow_pos m e
  refine ⟨⌊(m * 2 ^ e : ℚ) / 10 ^ grid⌋₊ + 1, ?_⟩
  have hfloor := Nat.floor_le (show (0 : ℚ) ≤ m * 2 ^ e / 10 ^ grid by positivity)
  have hnext := Nat.lt_floor_add_one ((m * 2 ^ e : ℚ) / 10 ^ grid)
  rw [le_div_iff₀ hten] at hfloor
  rw [div_lt_iff₀ hten] at hnext
  rw [holds_ofBinary_iff h]
  push_cast
  split <;> constructor <;> linarith

end Canonical

/-! ## Logarithms -/

theorem floorLog2_spec {num den : Nat} (hnum : 0 < num) (hden : 0 < den) :
    (2 : ℚ) ^ floorLog2 num den ≤ num / den ∧ (num / den : ℚ) < 2 ^ (floorLog2 num den + 1) := by
  have hden' : (0 : ℚ) < den := Nat.cast_pos.2 hden
  have hsplit : (2 : ℚ) ^ ((num.log2 : Int) - den.log2) = 2 ^ num.log2 / 2 ^ den.log2 := by
    rw [zpow_sub₀ (by norm_num), zpow_natCast, zpow_natCast]
  have hnumlow : (2 ^ num.log2 : ℚ) ≤ num := by exact_mod_cast Nat.log2_self_le hnum.ne'
  have hnumhigh : (num : ℚ) < 2 ^ num.log2 * 2 := by
    rw [← pow_succ]
    exact_mod_cast Nat.lt_log2_self
  have hdenlow : (2 ^ den.log2 : ℚ) ≤ den := by exact_mod_cast Nat.log2_self_le hden.ne'
  have hdenhigh : (den : ℚ) < 2 ^ den.log2 * 2 := by
    rw [← pow_succ]
    exact_mod_cast Nat.lt_log2_self
  obtain ⟨hp, hq⟩ := powerOfTwo_pos ((num.log2 : Int) - den.log2)
  have hq' : (0 : ℚ) < (powerOfTwo ((num.log2 : Int) - den.log2)).2 := Nat.cast_pos.2 hq
  have htest : num * (powerOfTwo ((num.log2 : Int) - den.log2)).2 <
      den * (powerOfTwo ((num.log2 : Int) - den.log2)).1 ↔
        (num / den : ℚ) < 2 ^ ((num.log2 : Int) - den.log2) := by
    rw [← powerOfTwo_div, div_lt_div_iff₀ hden' hq', mul_comm (_ : ℚ) (den : ℚ)]
    norm_cast
  unfold floorLog2
  dsimp only
  split
  · next hlt =>
    rw [htest] at hlt
    refine ⟨?_, by rwa [sub_add_cancel]⟩
    rw [zpow_sub_one₀ (by norm_num), hsplit, ← div_eq_mul_inv, div_div,
      div_le_div_iff₀ (by positivity) hden']
    exact mul_le_mul hnumlow hdenhigh.le hden'.le (by positivity)
  · next hge =>
    rw [htest, not_lt] at hge
    refine ⟨hge, ?_⟩
    rw [zpow_add_one₀ (by norm_num), hsplit, div_mul_eq_mul_div,
      div_lt_div_iff₀ hden' (by positivity)]
    exact mul_lt_mul hnumhigh hdenlow (by positivity) (by positivity)

theorem powerOfTen_le_iff {num den : Nat} (hden : 0 < den) (e : Int) :
    den * (powerOfTen e).1 ≤ num * (powerOfTen e).2 ↔ (10 : ℚ) ^ e ≤ num / den := by
  have hden' : (0 : ℚ) < den := Nat.cast_pos.2 hden
  have hq : (0 : ℚ) < (powerOfTen e).2 := Nat.cast_pos.2 (powerOfTen_pos e).2
  rw [← powerOfTen_div, div_le_div_iff₀ hq hden', mul_comm (_ : ℚ) (den : ℚ)]
  norm_cast

/-- The search downwards ends at the first power of ten that is not too large, if it comes to one
that is not. -/
theorem floorLog10_search {num den : Nat} (hden : 0 < den) {low e : Int} {fuel : Nat}
    (hlow : (10 : ℚ) ^ low ≤ num / den) (hreach : e ≤ low + fuel) (hle : low ≤ e) :
    low ≤ floorLog10.search num den e fuel ∧
      (10 : ℚ) ^ floorLog10.search num den e fuel ≤ num / den := by
  induction fuel generalizing e with
  | zero =>
    obtain rfl : e = low := by omega
    exact ⟨Int.le_refl _, hlow⟩
  | succ fuel ih =>
    unfold floorLog10.search
    dsimp only
    split
    · next hfits => exact ⟨hle, (powerOfTen_le_iff hden e).1 hfits⟩
    · next hlarge =>
      have hne : low ≠ e := fun heq => hlarge ((powerOfTen_le_iff hden e).2 (heq ▸ hlow))
      exact ih (by omega) (by omega)

/-- A power of ten is below a power of two if its exponent is some way below three tenths of the
other, as far as doubles go. -/
theorem ten_zpow_le_two_zpow {t g : Int} (ht : 100000 * (t + 3) ≤ (g + 1) * 30103)
    (hlow : -1100 ≤ g) (hhigh : g ≤ 1100) : (10 : ℚ) ^ t ≤ 2 ^ g := by
  rcases le_or_gt 0 t with hpos | hneg
  · obtain ⟨s, rfl⟩ := Int.eq_ofNat_of_zero_le hpos
    obtain ⟨k, rfl⟩ := Int.eq_ofNat_of_zero_le (show 0 ≤ g by omega)
    rw [zpow_natCast, zpow_natCast]
    refine le_of_pow_le_pow_left₀ (show (3 : Nat) ≠ 0 by decide) (by positivity) ?_
    calc ((10 : ℚ) ^ s) ^ 3 = (10 ^ 3) ^ s := by rw [← pow_mul, ← pow_mul, Nat.mul_comm]
      _ ≤ (2 ^ 10) ^ s := pow_le_pow_left₀ (by norm_num) (by norm_num) s
      _ = 2 ^ (10 * s) := by rw [← pow_mul]
      _ ≤ 2 ^ (k * 3) := pow_le_pow_right₀ (by norm_num) (by omega)
      _ = (2 ^ k) ^ 3 := by rw [← pow_mul]
  · obtain ⟨s, rfl⟩ : ∃ s : Nat, t = -s := ⟨(-t).toNat, by omega⟩
    rcases le_or_gt 0 g with hg | hg
    · calc (10 : ℚ) ^ (-(s : Int)) ≤ 1 := zpow_le_one_of_nonpos₀ (by norm_num) (by omega)
        _ ≤ 2 ^ g := one_le_zpow₀ (by norm_num) hg
    · obtain ⟨k, rfl⟩ : ∃ k : Nat, g = -k := ⟨(-g).toNat, by omega⟩
      rw [zpow_neg, zpow_neg, zpow_natCast, zpow_natCast]
      refine inv_anti₀ (by positivity) ?_
      refine le_of_pow_le_pow_left₀ (show (28 : Nat) ≠ 0 by decide) (by positivity) ?_
      calc ((2 : ℚ) ^ k) ^ 28 = 2 ^ (k * 28) := by rw [← pow_mul]
        _ ≤ 2 ^ (93 * s) := pow_le_pow_right₀ (by norm_num) (by omega)
        _ = (2 ^ 93) ^ s := by rw [← pow_mul]
        _ ≤ (10 ^ 28) ^ s := pow_le_pow_left₀ (by norm_num) (by norm_num) s
        _ = (10 ^ s) ^ 28 := by rw [← pow_mul, ← pow_mul, Nat.mul_comm]

/-- **The power of ten below a double.** It is no fraction if the double is not below one. -/
theorem floorLog10_spec {num den : Nat} (hnum : 0 < num) (hden : 0 < den)
    (hlow : (2 : ℚ) ^ (-1074 : Int) ≤ num / den) (hhigh : (num / den : ℚ) < 2 ^ (1024 : Int)) :
    (10 : ℚ) ^ floorLog10 num den ≤ num / den ∧
      ((1 : ℚ) ≤ num / den → 0 ≤ floorLog10 num den) := by
  obtain ⟨hg, hg'⟩ := floorLog2_spec hnum hden
  unfold floorLog10
  dsimp only
  generalize floorLog2 num den = g at hg hg'
  have hgreat : g < 1024 := (zpow_lt_zpow_iff_right₀ (by norm_num)).1 (hg.trans_lt hhigh)
  have hsmall : -1074 < g + 1 :=
    (zpow_lt_zpow_iff_right₀ (show (1 : ℚ) < 2 by norm_num)).1 (hlow.trans_lt hg')
  have hten : (10 : ℚ) ^ ((g + 1) * 30103 / 100000 + 1 - 4) ≤ num / den :=
    (ten_zpow_le_two_zpow (by omega) (by omega) (by omega)).trans hg
  refine ⟨(floorLog10_search hden hten (by omega) (by omega)).2, fun hone => ?_⟩
  have hg0 : 0 < g + 1 :=
    (zpow_lt_zpow_iff_right₀ (show (1 : ℚ) < 2 by norm_num)).1 (by
      rw [zpow_zero]
      exact hone.trans_lt hg')
  rcases le_or_gt 0 ((g + 1) * 30103 / 100000 + 1 - 4) with hpos | hneg
  · exact hpos.trans (floorLog10_search hden hten (by omega) (by omega)).1
  · exact (floorLog10_search hden (by rwa [zpow_zero]) (by omega) (by omega)).1

/-! ## The digits -/

/-- Zeros that are moved into the exponent change nothing. -/
theorem strip_go_spec (digits : Nat) (exponent : Int) (fuel : Nat) :
    exponent ≤ (Digits.strip.go digits exponent fuel).exponent ∧
      ((Digits.strip.go digits exponent fuel).digits *
        10 ^ (Digits.strip.go digits exponent fuel).exponent : ℚ) = digits * 10 ^ exponent := by
  induction fuel generalizing digits exponent with
  | zero => exact ⟨Int.le_refl _, rfl⟩
  | succ fuel ih =>
    unfold Digits.strip.go
    split
    · next hlast =>
      obtain ⟨hexponent, hvalue⟩ := ih (digits / 10) (exponent + 1)
      refine ⟨by omega, hvalue.trans ?_⟩
      obtain ⟨front, rfl⟩ := Nat.dvd_of_mod_eq_zero hlast.2
      rw [Nat.mul_div_cancel_left _ (by decide), zpow_add_one₀ (by norm_num)]
      push_cast
      ring
    · exact ⟨Int.le_refl _, rfl⟩

section

variable {m : Nat} {e : Int}

/-- The digits start at the power of ten below the double. -/
theorem Canonical.floorLog10_spec (h : Canonical m e) (hgreat : e ≤ 971) :
    let first := floorLog10 (Interval.ofBinary m e).value (Interval.ofBinary m e).den
    (10 : ℚ) ^ first ≤ m * 2 ^ e ∧ ((1 : ℚ) ≤ m * 2 ^ e → 0 ≤ first) := by
  have hvalue := Interval.value_ofBinary m e
  have hpos : 0 < (Interval.ofBinary m e).value :=
    Nat.mul_pos (Nat.mul_pos (by decide) h.pos) (powerOfTwo_pos (e - 2)).1
  have hone : (1 : ℚ) ≤ m := Nat.one_le_cast.2 h.pos
  have hsize : (m : ℚ) < 2 ^ 53 := by exact_mod_cast h.size
  have hlow : (2 : ℚ) ^ (-1074 : Int) ≤ m * 2 ^ e := by
    calc (2 : ℚ) ^ (-1074 : Int) ≤ 2 ^ e := zpow_le_zpow_right₀ (by norm_num) h.least
      _ ≤ m * 2 ^ e := le_mul_of_one_le_left (by positivity) hone
  have hhigh : (m * 2 ^ e : ℚ) < 2 ^ (1024 : Int) := by
    calc (m * 2 ^ e : ℚ) < 2 ^ 53 * 2 ^ e := mul_lt_mul_of_pos_right hsize (by positivity)
      _ = 2 ^ (53 + e) := by rw [zpow_add₀ (by norm_num), zpow_ofNat]
      _ ≤ 2 ^ (1024 : Int) := zpow_le_zpow_right₀ (by norm_num) (by omega)
  rw [← hvalue] at hlow hhigh ⊢
  exact Decimal.floorLog10_spec hpos (Interval.den_ofBinary_pos m e) hlow hhigh

/-- Seventeen digits are enough. -/
theorem Canonical.exists_holds_finest (h : Canonical m e) {first : Int}
    (hfirst : (10 : ℚ) ^ first ≤ m * 2 ^ e) :
    ∃ n : Nat, (Interval.ofBinary m e).Holds (n * 10 ^ (first - 17)) := by
  refine h.exists_holds_of_fine ?_
  have hsize : (m : ℚ) < 2 ^ 53 := by exact_mod_cast h.size
  have htwo : (0 : ℚ) < 2 ^ e := by positivity
  have hlt := hfirst.trans_lt (mul_lt_mul_of_pos_right hsize htwo)
  rw [zpow_sub₀ (by norm_num), div_lt_div_iff₀ (by positivity) (by norm_num)]
  norm_num at hlt ⊢
  linarith

/-- **The digits identify the double.** The number that they stand for is rounded to it. If it is a
whole number, then no digit stands behind the point. -/
theorem shortest_spec (h : Canonical m e) (hgreat : e ≤ 971) (tie : Tie) :
    let d := shortest tie m e
    (Interval.ofBinary m e).Holds (d.digits * 10 ^ d.exponent) ∧
      ((∃ n : Nat, (m * 2 ^ e : ℚ) = n) → 0 ≤ d.exponent) := by
  intro d
  obtain ⟨hfirst, hone⟩ := h.floorLog10_spec hgreat
  have hden := Interval.den_ofBinary_pos m e
  have hvalue := h.holds_value
  rw [← Interval.value_ofBinary] at hvalue
  generalize hlog : floorLog10 (Interval.ofBinary m e).value (Interval.ofBinary m e).den = first
    at hfirst hone
  obtain ⟨_, hfinest⟩ := h.exists_holds_finest hfirst
  obtain ⟨hfine, hholds⟩ := Interval.search_holds tie hden hvalue hfinest
    (show first < first - 17 + (18 : Nat) by omega) (by omega)
  obtain ⟨hstrip, hsame⟩ := strip_go_spec
    ((Interval.ofBinary m e).search tie first 18).digits
    ((Interval.ofBinary m e).search tie first 18).exponent 20
  have hd : d = ((Interval.ofBinary m e).search tie first 18).strip := by
    rw [← hlog]
    rfl
  refine ⟨by rw [hd]; exact hsame.symm ▸ hholds, ?_⟩
  rintro ⟨n, hn⟩
  have hwhole : 0 ≤ ((Interval.ofBinary m e).search tie first 18).exponent := by
    rcases le_or_gt first 17 with hle | hgt
    · have hpos : (0 : ℚ) < n := hn ▸ mul_pos (Nat.cast_pos.2 h.pos) (by positivity)
      have hfirst : 0 ≤ first := hone (hn ▸ Nat.one_le_cast.2 (Nat.cast_pos.1 hpos))
      have hpoint : (Interval.ofBinary m e).Holds (n * 10 ^ (0 : Int)) := by
        rw [zpow_zero, mul_one, ← hn]
        exact h.holds_value
      exact (Interval.search_holds tie hden hvalue hpoint (by omega) hfirst).1
    · omega
  rw [hd]
  exact hwhole.trans hstrip

end

end PuzzlePlayback.Decimal
