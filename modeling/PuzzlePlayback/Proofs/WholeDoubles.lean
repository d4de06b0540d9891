import Mathlib

/-!
# Whole numbers as doubles

How much of a drawing is not covered is a quotient of two whole numbers, taken as doubles. A double
is computed with by unpacking it into a mantissa and an exponent; the result is rounded to 53 bits
and packed again. On this way a whole number above zero becomes neither zero nor undefined: its
mantissa is never shifted out (`shift_bounds`), and packing keeps what is left of it
(`positive_unpack_pack`). It may become infinite, which does no harm.

Main result: `zero_div_ofNat`, zero divided by a whole number above zero is zero.
-/

namespace PuzzlePlayback.Double

open Float.Model Float.Model.UnpackedFloat

/-- A number above zero, its exponent within reach of a double, or infinity. -/
inductive Positive : UnpackedFloat → Prop
  | finite {m : Nat} {e : Int} (h : 0 < m) : -1074 ≤ e → Positive (.finite .positive m e h)
  | infinity : Positive (.infinity .positive)

theorem log2_mul_two_pow {n : Nat} (hn : n ≠ 0) (k : Nat) : (n * 2 ^ k).log2 = n.log2 + k := by
  have hpos : n * 2 ^ k ≠ 0 := Nat.mul_ne_zero hn (Nat.two_pow_pos k).ne'
  refine (Nat.log2_eq_iff hpos).2 ⟨?_, ?_⟩
  · rw [Nat.pow_add]
    exact Nat.mul_le_mul_right _ (Nat.log2_self_le hn)
  · rw [Nat.add_right_comm, Nat.pow_add]
    exact Nat.mul_lt_mul_of_pos_right Nat.lt_log2_self (Nat.two_pow_pos k)

/-! ## Rounding -/

theorem mantissa_shiftRight (em : ExtendedMantissa) (k : Nat) :
    (em >>> k).mantissa = em.mantissa / 2 ^ k := by
  induction k with
  | zero => exact (Nat.div_one _).symm
  | succ k ih =>
    show (em >>> k).mantissa / 2 = em.mantissa / 2 ^ (k + 1)
    rw [ih, Nat.div_div_eq_div_mul, Nat.pow_succ]

theorem mantissa_le_roundedMantissa (em : ExtendedMantissa) :
    em.mantissa ≤ em.roundedMantissa := by
  obtain ⟨m, _ | _, _ | _⟩ := em <;>
    simp [ExtendedMantissa.roundedMantissa, ExtendedMantissa.accuracy,
      Accuracy.roundToNearestEven]

/-- A number that reaches the least exponent keeps a mantissa above zero when it is shifted to the
53 bits of a double. -/
theorem shift_bounds {m : Nat} {e : Int} (hm : m ≠ 0) (he : -1074 ≤ m.log2 + e) :
    0 < (shiftToTargetExponent .binary64 m e .exact).1.mantissa ∧
      (shiftToTargetExponent .binary64 m e .exact).1.mantissa < 2 ^ 53 ∧
      -1074 ≤ (shiftToTargetExponent .binary64 m e .exact).2 := by
  have htarget : Format.binary64.targetExponent (totalExponent m e) =
      max (m.log2 + e - 52) (-1074) := by
    simp only [Format.targetExponent, totalExponent, Format.mantissaBits, Format.minExponent]
    omega
  unfold shiftToTargetExponent shiftToExponent
  rw [htarget]
  dsimp only
  rw [mantissa_shiftRight]
  generalize hk : (max (m.log2 + e - 52) (-1074) - e).toNat = k
  have hlow : k ≤ m.log2 := by omega
  have hhigh : m.log2 < 53 + k := by omega
  refine ⟨?_, ?_, by omega⟩
  · refine Nat.div_pos ?_ (Nat.two_pow_pos k)
    exact Nat.le_trans (Nat.pow_le_pow_right Nat.two_pos hlow) (Nat.log2_self_le hm)
  · refine (Nat.div_lt_iff_lt_mul (Nat.two_pow_pos k)).2 ?_
    rw [← Nat.pow_add]
    exact (Nat.log2_lt hm).1 hhigh

/-- Such a number does not round to zero. -/
theorem roundWithAccuracy_positive {m : Nat} {e : Int} (hm : m ≠ 0) (he : -1074 ≤ m.log2 + e) :
    ∃ m' e' h, roundWithAccuracy .binary64 .positive m e .exact = .finite .positive m' e' h ∧
      m' < 2 ^ 53 ∧ -1074 ≤ e' := by
  obtain ⟨hpos, -, hexponent⟩ := shift_bounds hm he
  unfold roundWithAccuracy
  generalize shiftToTargetExponent .binary64 m e .exact = first at hpos hexponent
  obtain ⟨em, e₁⟩ := first
  dsimp only at hpos hexponent ⊢
  -- Rounding up may take one bit too many, so there is a second shift.
  have hrounded : em.roundedMantissa ≠ 0 :=
    Nat.pos_iff_ne_zero.1 (Nat.lt_of_lt_of_le hpos (mantissa_le_roundedMantissa em))
  obtain ⟨hpos', hlt', hexponent'⟩ :=
    shift_bounds hrounded (show -1074 ≤ (em.roundedMantissa.log2 : Int) + e₁ by omega)
  rw [dif_neg (Nat.pos_iff_ne_zero.1 hpos')]
  exact ⟨_, _, _, rfl, hlt', hexponent'⟩

/-! ## Packing -/

/-- What is unpacked from components above zero. -/
theorem positive_unpack_packComponents (exponent : BitVec 11) (mantissa : BitVec 52)
    (hinfinite : exponent = -1#11 → mantissa = 0#52) (hzero : exponent = 0#11 → mantissa ≠ 0#52) :
    Positive (UnpackedFloat.unpack .binary64
      (packComponents .binary64 .positive exponent mantissa)) := by
  unfold UnpackedFloat.unpack
  simp only [unpackExponent_packComponents, unpackMantissa_packComponents,
    unpackSign_packComponents, Sign.ofBitVec_toBitVec]
  split
  · next hones =>
    rw [if_pos (hinfinite hones)]
    exact .infinity
  · split
    · next hzeros =>
      rw [dif_neg (hzero hzeros)]
      refine .finite _ ?_
      simp [hzeros, Format.exponentBias]
    · next hne =>
      refine .finite _ ?_
      have hpos : 0 < exponent.toNat := (BitVec.toNat_pos _).2 ((BitVec.pos_iff_ne_zero _).2 hne)
      simp [Format.exponentBias]
      omega

/-- Packing keeps a number above zero, or makes it infinite. -/
theorem positive_unpack_pack {m : Nat} {e : Int} (h : 0 < m) (hm : m < 2 ^ 53) (he : -1074 ≤ e) :
    Positive (Float.Model.pack (.finite .positive m e h)).unpack := by
  show Positive (UnpackedFloat.unpack .binary64 (UnpackedFloat.pack .binary64 _))
  unfold UnpackedFloat.pack
  dsimp only
  generalize hbiased : (e + (Format.binary64.exponentBias : Int) +
    (Format.binary64.mantissaBitsWithoutImplicit : Int)).toNat = biased
  have hone : 1 ≤ biased := by
    simp only [Format.exponentBias] at hbiased
    omega
  split
  · exact positive_unpack_packComponents _ _ (fun _ => rfl) (by decide)
  · next hfits =>
    replace hfits : biased < 2047 := by omega
    have hbits : (BitVec.ofNat 11 biased).toNat = biased := by
      rw [BitVec.toNat_ofNat]
      exact Nat.mod_eq_of_lt (by omega)
    split
    · refine positive_unpack_packComponents _ _ (fun hones => ?_) fun hzeros => ?_
      · have hlast : biased = 2047 := hbits.symm.trans (congrArg BitVec.toNat hones)
        omega
      · have hnone : biased = 0 := hbits.symm.trans (congrArg BitVec.toNat hzeros)
        omega
    · next hshort =>
      -- A mantissa of fewer than 53 bits is kept as it is.
      have hlog : m.log2 < 53 := (Nat.log2_lt (Nat.ne_of_gt h)).2 hm
      replace hshort : m.log2 + 1 ≠ 53 := hshort
      have hsmall : m < 2 ^ 52 := (Nat.log2_lt (Nat.ne_of_gt h)).1 (by omega)
      refine positive_unpack_packComponents _ _ nofun fun _ hzero => Nat.ne_of_gt h ?_
      have hmantissa := congrArg BitVec.toNat hzero
      rwa [BitVec.toNat_ofNat, Nat.mod_eq_of_lt hsmall] at hmantissa

/-- Rounding a number that reaches the least exponent, and packing it, keeps it above zero. -/
theorem positive_round {m : Nat} {e : Int} (hm : m ≠ 0) (he : -1074 ≤ m.log2 + e) :
    Positive (Float.Model.pack (roundWithAccuracy .binary64 .positive m e .exact)).unpack := by
  obtain ⟨m', e', h, hround, hlt, hexponent⟩ := roundWithAccuracy_positive hm he
  rw [hround]
  exact positive_unpack_pack h hlt hexponent

/-- So does multiplying two numbers. -/
theorem positive_mul {m₁ m₂ : Nat} {e₁ e₂ : Int} (h₁ : 0 < m₁) (h₂ : 0 < m₂)
    (he : -1074 ≤ (m₁ * m₂).log2 + (e₁ + e₂)) :
    Positive (Float.Model.pack (UnpackedFloat.mul .binary64 (.finite .positive m₁ e₁ h₁)
      (.finite .positive m₂ e₂ h₂))).unpack :=
  positive_round (Nat.ne_of_gt (Nat.mul_pos h₁ h₂)) he

/-! ## Whole numbers -/

/-- A whole number is shifted until there are 53 digits, and then rounded. -/
theorem ofNat_eq_round {n : Nat} (hn : 0 < n) :
    UnpackedFloat.ofNat .binary64 n = roundWithAccuracy .binary64 .positive
      (n * 2 ^ (52 - n.log2)) (-(52 - n.log2 : Nat)) .exact := by
  have hcompare : compare (n : Int) 0 = .gt := Int.compare_eq_gt.2 (by omega)
  have hshift : (0 - Format.binary64.targetExponent (totalExponent n 0)).toNat = 52 - n.log2 := by
    simp only [Format.targetExponent, totalExponent, Format.mantissaBits, Format.minExponent]
    omega
  unfold UnpackedFloat.ofNat UnpackedFloat.ofInt UnpackedFloat.normalize
  rw [hcompare]
  show UnpackedFloat.round .binary64 .positive n 0 = _
  unfold UnpackedFloat.round decreaseExponent
  dsimp only
  rw [hshift, Nat.shiftLeft_eq, Int.zero_sub]

/-- A whole number above zero in a word. -/
theorem positive_ofUInt64 {n : UInt64} (hn : 0 < n.toNat) :
    Positive (Float.Model.ofUInt64 n).unpack := by
  have hlog := log2_mul_two_pow hn.ne' (52 - n.toNat.log2)
  show Positive (Float.Model.pack (UnpackedFloat.ofNat .binary64 n.toNat)).unpack
  rw [ofNat_eq_round hn]
  exact positive_round (Nat.ne_of_gt (Nat.mul_pos hn (Nat.two_pow_pos _))) (by omega)

/-- A product with one stays above zero. -/
theorem Positive.mul_one {u : UnpackedFloat} (hu : Positive u) :
    Positive (Float.Model.pack (UnpackedFloat.mul .binary64 u
      (.finite .positive (2 ^ 52) (-52) (Nat.two_pow_pos 52)))).unpack := by
  cases hu with
  | infinity => exact .infinity
  | @finite m e h he =>
    have hlog := log2_mul_two_pow h.ne' 52
    exact positive_mul h (Nat.two_pow_pos 52) (by omega)

/-- A small whole number is a word times one. -/
theorem ofNat_of_lt {n : Nat} (h : n < 2 ^ 53) :
    Float.ofNat n = n.toUInt64.toFloat * Float.exactlyRepresentablePowersOfTen[0] := by
  show Float.ofScientific n false 0 = _
  unfold Float.ofScientific
  rw [dif_pos ⟨h, by decide⟩]
  rfl

/-- A large one is a mantissa times one. -/
theorem ofNat_of_not_lt {n : Nat} (hn : 0 < n) (h : ¬n < 2 ^ 53) :
    Float.ofNat n = ⟨Float.Model.pack (UnpackedFloat.mul .binary64
      (.finite .positive (n * 2 ^ 53) (-53) (Nat.mul_pos hn (Nat.two_pow_pos 53)))
      (.finite .positive 1 0 Nat.one_pos))⟩ := by
  have hreach : (2 : Int) ^ Format.binary64.exponentBits = 2048 := rfl
  show Float.ofScientific n false 0 = _
  unfold Float.ofScientific
  rw [dif_neg fun hn => h hn.1]
  show (⟨Float.Model.ofScientific n 0⟩ : Float) = _
  unfold Float.Model.ofScientific UnpackedFloat.ofScientific
  rw [hreach, dif_neg (Nat.ne_of_gt hn), if_neg (by decide), if_neg (by omega),
    if_pos (Int.le_refl 0)]
  simp only [Nat.shiftLeft_eq]
  rfl

/-- A whole number above zero as a double. -/
theorem positive_ofNat {n : Nat} (hn : 0 < n) : Positive (Float.ofNat n).toModel.unpack := by
  by_cases h : n < 2 ^ 53
  · have hword : n.toUInt64.toNat = n := Nat.mod_eq_of_lt (by omega)
    rw [ofNat_of_lt h]
    exact (positive_ofUInt64 (by omega)).mul_one
  · rw [ofNat_of_not_lt hn h]
    have hlog := log2_mul_two_pow hn.ne' 53
    refine positive_mul _ Nat.one_pos ?_
    rw [Nat.mul_one]
    omega

theorem Positive.zero_div {u : UnpackedFloat} (hu : Positive u) :
    UnpackedFloat.div .binary64 (.zero .positive) u = .zero .positive := by
  cases hu with
  | finite _ _ => rfl
  | infinity => rfl

/-- **Zero divided by a whole number above zero is zero.** -/
theorem zero_div_ofNat {n : Nat} (hn : 0 < n) : Float.ofNat 0 / Float.ofNat n = 0 := by
  have hzero : (Float.ofNat 0).toModel.unpack = .zero .positive := rfl
  have hmodel : Float.ofNat 0 / Float.ofNat n =
      ⟨Float.Model.pack (UnpackedFloat.div .binary64 (Float.ofNat 0).toModel.unpack
        (Float.ofNat n).toModel.unpack)⟩ := rfl
  rw [hmodel, hzero, (positive_ofNat hn).zero_div]
  rfl

end PuzzlePlayback.Double
