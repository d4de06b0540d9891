import PuzzlePlayback.Proofs.ExactDoubles
import PuzzlePlayback.Rating

/-!
# The stars follow the rule

A solved puzzle has three stars up to par, two up to one and a half times par, rounded up, and
otherwise one. The limit for two stars is computed with doubles and cut to a word. No digit is lost
on the way: par has at most 32 binary digits, so three halves of it have at most 34, and a double
has room for 53. What is cut is the limit beyond the largest word, and no program has more blocks
than that. So the stars are those of the rule in whole numbers, for every par and every number of
blocks.

Main result: `stars_follow_rule`.
-/

namespace PuzzlePlayback

open Decimal Double

/-! ## The limit for two stars -/

/-- One and a half is held. -/
theorem holds_twoStarFactor : Holds twoStarFactor 3 (-1) := ⟨by decide, by decide, rfl⟩

/-- Three halves of par, as they are computed. -/
theorem holds_scaledPar {par : UInt32} (hpar : 0 < par.toNat) :
    Holds (par.toFloat * twoStarFactor) (par.toNat * 3) (-1) := by
  have hlog : (par.toNat * 3).log2 < 34 := by
    have hlt := par.toNat_lt
    exact (Nat.log2_lt (by omega)).2 (by omega)
  have hmul := (holds_toFloat hpar).mul holds_twoStarFactor (by omega) (by omega) (by omega)
  rwa [Int.zero_add] at hmul

theorem ceil_half (n k : Nat) :
    (n * 2 ^ k + (2 ^ (k + 1) - 1)) / 2 ^ (k + 1) = (n + 1) / 2 := by
  have hpos := Nat.two_pow_pos k
  rw [Nat.pow_succ, ← Nat.div_div_eq_div_mul]
  congr 1
  refine Nat.div_eq_of_lt_le ?_ ?_
  · rw [Nat.add_one_mul]
    omega
  · rw [Nat.add_one_mul, Nat.add_one_mul]
    omega

/-- Half of a number is rounded up and cut to a word. -/
theorem ceilWord_of_holds {x : Float} {n : Nat} (hx : Holds x n (-1)) :
    (Binary.ofFloat x).ceilWord = .ofNat (min ((n + 1) / 2) (UInt32.size - 1)) := by
  obtain ⟨hlog, _, hunpack⟩ := hx
  obtain ⟨k, hk⟩ : ∃ k, 52 - n.log2 = k := ⟨_, rfl⟩
  have hexponent : (n.log2 - 52 + -1 : Int) = -(k + 1 : Nat) := by omega
  have hpower : powerOfTwo (-(k + 1 : Nat)) = (1, 2 ^ (k + 1)) := by
    rw [powerOfTwo, if_neg (by omega), Int.neg_neg, Int.toNat_natCast]
    rfl
  have hparts : Binary.ofFloat x = .finite false (n * 2 ^ (52 - n.log2)) (n.log2 - 52 + -1) := by
    rw [ofFloat_eq, hunpack]
    rfl
  rw [hparts, hexponent, hk]
  simp only [Binary.ceilWord, hpower, Nat.mul_one, ceil_half, Bool.false_eq_true, if_false]

/-- **The limit for two stars**, as it is computed. -/
theorem toNat_twoStarBlocks (par : UInt32) :
    (twoStarBlocks par).toNat = min ((3 * par.toNat + 1) / 2) (UInt32.size - 1) := by
  by_cases hpar : par.toNat = 0
  · obtain rfl : par = 0 := UInt32.toNat_inj.1 hpar
    decide +kernel
  · rw [twoStarBlocks, ceilWord_of_holds (holds_scaledPar (Nat.pos_of_ne_zero hpar)),
      Nat.mul_comm]
    refine UInt32.toNat_ofNat_of_lt' (Nat.lt_of_le_of_lt (Nat.min_le_right _ _) (by decide))

/-! ## Stars -/

theorem ceil_threeHalves (par : Nat) : ⌈(3 * par : ℚ) / 2⌉ = ((3 * par + 1) / 2 : Nat) := by
  have hlow : 3 * par ≤ 2 * ((3 * par + 1) / 2) := by omega
  have hhigh : 2 * ((3 * par + 1) / 2) ≤ 3 * par + 1 := by omega
  generalize (3 * par + 1) / 2 = limit at hlow hhigh
  have hlow : (3 * par : ℚ) ≤ 2 * limit := by exact_mod_cast hlow
  have hhigh : (2 * limit : ℚ) ≤ 3 * par + 1 := by exact_mod_cast hhigh
  rw [Int.ceil_eq_iff, Int.cast_natCast]
  constructor <;> linarith

/-- The stars by the rule, in whole numbers. -/
theorem starsFor_eq (blocks par : UInt32) : starsFor blocks par =
    if blocks.toNat ≤ par.toNat then 3
    else if blocks.toNat ≤ (3 * par.toNat + 1) / 2 then 2 else 1 := by
  have hword : blocks.toNat ≤ UInt32.size - 1 := Nat.le_sub_one_of_lt blocks.toNat_lt
  have hlimit : blocks.toNat ≤ (twoStarBlocks par).toNat ↔
      blocks.toNat ≤ (3 * par.toNat + 1) / 2 := by
    rw [toNat_twoStarBlocks, le_min_iff, and_iff_left hword]
  simp only [starsFor, UInt32.le_iff_toNat_le, hlimit]

theorem starsFor_antitone {blocks more : UInt32} (h : blocks ≤ more) (par : UInt32) :
    starsFor more par ≤ starsFor blocks par := by
  rw [UInt32.le_iff_toNat_le] at h
  rw [starsFor_eq, starsFor_eq]
  split_ifs <;> first | decide | omega

theorem starsFor_monotone (blocks : UInt32) {par higher : UInt32} (h : par ≤ higher) :
    starsFor blocks par ≤ starsFor blocks higher := by
  rw [UInt32.le_iff_toNat_le] at h
  rw [starsFor_eq, starsFor_eq]
  split_ifs <;> first | decide | omega

/-- **The stars follow the rule**: three up to par, two up to one and a half times par, rounded up
in unbounded numbers, and otherwise one. More blocks never earn more stars, and a higher par never
earns fewer. -/
theorem stars_follow_rule :
    (∀ blocks par : UInt32, starsFor blocks par = if blocks ≤ par then 3
      else if (blocks.toNat : Int) ≤ ⌈(3 * par.toNat : ℚ) / 2⌉ then 2 else 1) ∧
    (∀ blocks more par : UInt32, blocks ≤ more → starsFor more par ≤ starsFor blocks par) ∧
    ∀ blocks par higher : UInt32, par ≤ higher → starsFor blocks par ≤ starsFor blocks higher := by
  refine ⟨fun blocks par => ?_, fun _ _ par h => starsFor_antitone h par,
    fun blocks _ _ h => starsFor_monotone blocks h⟩
  rw [starsFor_eq, ceil_threeHalves]
  simp only [UInt32.le_iff_toNat_le, Int.ofNat_le]

/-- A par so high that its limit is no word: every other number of blocks earns two stars. -/
theorem stars_follow_rule_highPar :
    starsFor 4294967295 2863311531 = 2 ∧
    starsFor 4294967295 2863311531 ≤ starsFor 2863311532 2863311531 ∧
    starsFor 4294967295 2863311530 ≤ starsFor 4294967295 2863311531 ∧
    4294967295 < ⌈(3 * (2863311531 : UInt32).toNat : ℚ) / 2⌉ := by
  obtain ⟨hrule, hmore, hhigher⟩ := stars_follow_rule
  have hlimit : 4294967295 < ⌈(3 * (2863311531 : UInt32).toNat : ℚ) / 2⌉ := by
    rw [ceil_threeHalves]
    decide
  refine ⟨?_, hmore _ _ _ (by decide), hhigher _ _ _ (by decide), hlimit⟩
  rw [hrule, if_neg (by decide)]
  exact if_pos hlimit.le

end PuzzlePlayback
