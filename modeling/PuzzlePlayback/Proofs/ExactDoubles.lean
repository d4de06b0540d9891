import PuzzlePlayback.Decimal.Binary
import PuzzlePlayback.Proofs.WholeDoubles

/-!
# Doubles without rounding

A double holds 53 binary digits. A positive number that has no more is held as it is, shifted so
that its first digit comes first (`Holds`): nothing is lost when it is rounded (`round_exact`),
packed into bits and unpacked again (`unpack_pack`). So whole numbers of a 32-bit word are held,
and a product of two numbers is held if it has no more than 53 digits (`Holds.mul`).

The parts that are read off the bits of a double are those that its arithmetic unpacks
(`ofFloat_eq`).
-/

namespace PuzzlePlayback.Double

open Float.Model Float.Model.UnpackedFloat

/-- The double is the number `n * 2 ^ s`, which has at most 53 binary digits. -/
def Holds (x : Float) (n : Nat) (s : Int) : Prop :=
  n.log2 ≤ 52 ∧ ∃ h, x.toModel.unpack =
    .finite .positive (n * 2 ^ (52 - n.log2)) (n.log2 - 52 + s) h

theorem log2_add_log2_le {a b : Nat} (ha : a ≠ 0) (hb : b ≠ 0) :
    a.log2 + b.log2 ≤ (a * b).log2 := by
  rw [Nat.le_log2 (Nat.mul_ne_zero ha hb), Nat.pow_add]
  exact Nat.mul_le_mul (Nat.log2_self_le ha) (Nat.log2_self_le hb)

/-! ## Rounding -/

/-- Zeros are shifted out without a trace. -/
theorem shiftRight_exact (m k : Nat) :
    (⟨m * 2 ^ k, false, false⟩ : ExtendedMantissa) >>> k = ⟨m, false, false⟩ := by
  induction k generalizing m with
  | zero =>
    rw [Nat.pow_zero, Nat.mul_one]
    rfl
  | succ k ih =>
    have hlast : m * 2 ^ (k + 1) = 2 * m * 2 ^ k := by
      rw [Nat.pow_succ]
      ring
    show ((⟨m * 2 ^ (k + 1), false, false⟩ : ExtendedMantissa) >>> k).shiftRightOne = _
    rw [hlast, ih]
    simp [ExtendedMantissa.shiftRightOne]

section

variable {m : Nat} {e : Int}

theorem shift_exact (hm : m ≠ 0) (hlog : m.log2 = 52) (he : -1074 ≤ e) (k : Nat) :
    shiftToTargetExponent .binary64 (m * 2 ^ k) (e - k) .exact = (⟨m, false, false⟩, e) := by
  have htarget : Format.binary64.targetExponent (totalExponent (m * 2 ^ k) (e - k)) = e := by
    simp only [Format.targetExponent, totalExponent, log2_mul_two_pow hm, hlog,
      Format.mantissaBits, Format.minExponent]
    omega
  have hshift : (e - (e - k)).toNat = k := by omega
  unfold shiftToTargetExponent shiftToExponent
  rw [htarget]
  dsimp only
  rw [hshift]
  exact Prod.ext (shiftRight_exact m k) (by omega)

/-- **A number of 53 digits is not changed by rounding.** -/
theorem round_exact (hm : 0 < m) (hlog : m.log2 = 52) (he : -1074 ≤ e) (k : Nat) :
    roundWithAccuracy .binary64 .positive (m * 2 ^ k) (e - k) .exact =
      .finite .positive m e hm := by
  have hfirst := shift_exact hm.ne' hlog he k
  have hsecond := shift_exact hm.ne' hlog he 0
  rw [Nat.pow_zero, Nat.mul_one, Int.natCast_zero, Int.sub_zero] at hsecond
  have hrounded : (⟨m, false, false⟩ : ExtendedMantissa).roundedMantissa = m := rfl
  unfold roundWithAccuracy
  rw [hfirst]
  dsimp only
  rw [hrounded, hsecond]
  exact dif_neg hm.ne'

/-! ## Packing -/

/-- The first of 53 digits is one, and it is not stored. -/
theorem toNat_leading_one (fraction : BitVec 52) :
    (1#1 ++ fraction).toNat = 2 ^ 52 + fraction.toNat := by
  rw [BitVec.toNat_append, ← Nat.shiftLeft_add_eq_or_of_lt fraction.isLt]
  rfl

theorem append_leading_one (hm : 0 < m) (hlog : m.log2 = 52) :
    (1#1 ++ BitVec.ofNat 52 m).toNat = m := by
  obtain ⟨hlow, hhigh⟩ := (Nat.log2_eq_iff hm.ne').1 hlog
  rw [toNat_leading_one, BitVec.toNat_ofNat]
  omega

/-- **A number of 53 digits survives packing**, inside the range of exponents. -/
theorem unpack_pack (hm : 0 < m) (hlog : m.log2 = 52) (he : -1074 ≤ e) (he' : e ≤ 971) :
    (Float.Model.pack (.finite .positive m e hm)).unpack = .finite .positive m e hm := by
  show UnpackedFloat.unpack .binary64 (UnpackedFloat.pack .binary64 _) = _
  obtain ⟨biased, hbiased⟩ : ∃ biased : Nat, (biased : Int) = e + 1075 :=
    ⟨(e + 1075).toNat, by omega⟩
  have hexponent : (e + (Format.binary64.exponentBias : Int) +
      (Format.binary64.mantissaBitsWithoutImplicit : Int)).toNat = biased := by
    simp only [Format.exponentBias]
    omega
  have hbits : (BitVec.ofNat 11 biased).toNat = biased := by
    rw [BitVec.toNat_ofNat]
    exact Nat.mod_eq_of_lt (by omega)
  have hones : BitVec.ofNat 11 biased ≠ -1#11 := fun heq => by
    have hlast : biased = 2047 := hbits.symm.trans (congrArg BitVec.toNat heq)
    omega
  have hzeros : BitVec.ofNat 11 biased ≠ 0#11 := fun heq => by
    have hnone : biased = 0 := hbits.symm.trans (congrArg BitVec.toNat heq)
    omega
  unfold UnpackedFloat.pack
  dsimp only
  rw [hexponent, if_neg (by omega), if_pos (by rw [hlog]; rfl)]
  unfold UnpackedFloat.unpack
  simp only [unpackExponent_packComponents, unpackMantissa_packComponents,
    unpackSign_packComponents, Sign.ofBitVec_toBitVec]
  rw [if_neg hones, if_neg hzeros]
  refine UnpackedFloat.finite.injEq .. ▸ ⟨rfl, append_leading_one hm hlog, ?_⟩
  show ((BitVec.ofNat 11 biased).toNat : Int) - (1023 + 52) = e
  omega

theorem unpack_round (hm : 0 < m) (hlog : m.log2 = 52) (he : -1074 ≤ e) (he' : e ≤ 971) (k : Nat) :
    (Float.Model.pack (roundWithAccuracy .binary64 .positive (m * 2 ^ k) (e - k) .exact)).unpack =
      .finite .positive m e hm := by
  rw [round_exact hm hlog he]
  exact unpack_pack hm hlog he he'

end

/-! ## Numbers that are held -/

section

variable {n : Nat} {s : Int}

/-- The digits of a number, shifted until there are 53. -/
theorem log2_shifted (hn : 0 < n) (hlog : n.log2 ≤ 52) : (n * 2 ^ (52 - n.log2)).log2 = 52 := by
  rw [log2_mul_two_pow hn.ne']
  omega

theorem shifted_pos (hn : 0 < n) (k : Nat) : 0 < n * 2 ^ k :=
  Nat.mul_pos hn (Nat.two_pow_pos k)

/-- A whole number in a 32-bit word is held. -/
theorem holds_toFloat {w : UInt32} (hw : 0 < w.toNat) : Holds w.toFloat w.toNat 0 := by
  have hlog : w.toNat.log2 < 32 := (Nat.log2_lt hw.ne').2 w.toNat_lt
  have hexact := unpack_round (e := w.toNat.log2 - 52 + 0) (shifted_pos hw _)
    (log2_shifted hw (by omega)) (by omega) (by omega) 0
  have hexponent : (w.toNat.log2 - 52 + 0 - (0 : Nat) : Int) = -(52 - w.toNat.log2 : Nat) := by
    omega
  rw [Nat.pow_zero, Nat.mul_one, hexponent, ← ofNat_eq_round hw] at hexact
  exact ⟨by omega, shifted_pos hw _, hexact⟩

/-- **A product that has no more than 53 digits is held.** -/
theorem Holds.mul {x y : Float} {a b : Nat} {s t : Int} (hx : Holds x a s) (hy : Holds y b t)
    (hlog : (a * b).log2 ≤ 52) (hlow : -1022 ≤ (a * b).log2 + (s + t))
    (hhigh : (a * b).log2 + (s + t) ≤ 1023) : Holds (x * y) (a * b) (s + t) := by
  obtain ⟨hloga, hposa, hx⟩ := hx
  obtain ⟨hlogb, hposb, hy⟩ := hy
  have ha : 0 < a := Nat.pos_of_mul_pos_right hposa
  have hb : 0 < b := Nat.pos_of_mul_pos_right hposb
  have hsum := log2_add_log2_le ha.ne' hb.ne'
  have hab := Nat.mul_pos ha hb
  refine ⟨hlog, shifted_pos hab _, ?_⟩
  show (Float.Model.pack (UnpackedFloat.mul .binary64 x.toModel.unpack y.toModel.unpack)).unpack = _
  rw [hx, hy]
  show (Float.Model.pack (roundWithAccuracy .binary64 .positive
    (a * 2 ^ (52 - a.log2) * (b * 2 ^ (52 - b.log2)))
    (a.log2 - 52 + s + (b.log2 - 52 + t)) .exact)).unpack = _
  -- The digits of the factors make up those of the product and some zeros.
  obtain ⟨zeros, hzeros⟩ : ∃ zeros, zeros + (a.log2 + b.log2) = 52 + (a * b).log2 :=
    ⟨52 + (a * b).log2 - (a.log2 + b.log2), by omega⟩
  have hdigits : a * 2 ^ (52 - a.log2) * (b * 2 ^ (52 - b.log2)) =
      a * b * 2 ^ (52 - (a * b).log2) * 2 ^ zeros := by
    calc a * 2 ^ (52 - a.log2) * (b * 2 ^ (52 - b.log2))
        = a * b * 2 ^ (52 - a.log2 + (52 - b.log2)) := by rw [pow_add]; ring
      _ = a * b * 2 ^ (52 - (a * b).log2 + zeros) := by congr 2; omega
      _ = a * b * 2 ^ (52 - (a * b).log2) * 2 ^ zeros := by rw [pow_add]; ring
  have hexponent : (a.log2 - 52 + s + (b.log2 - 52 + t) : Int) =
      (a * b).log2 - 52 + (s + t) - zeros := by omega
  rw [hdigits, hexponent]
  exact unpack_round (shifted_pos hab _) (log2_shifted hab hlog) (by omega) (by omega) zeros

end

/-! ## Reading the bits -/

section

variable (b : BitVec 64)

theorem toNat_unpackSign : (@unpackSign .binary64 b).toNat = b.toNat / 2 ^ 63 % 2 := by
  unfold unpackSign
  rw [BitVec.toNat_cast, BitVec.extractLsb_toNat, Nat.shiftRight_eq_div_pow]
  rfl

theorem toNat_unpackExponent :
    (@unpackExponent .binary64 b).toNat = b.toNat / 2 ^ 52 % 2 ^ 11 := by
  unfold unpackExponent
  rw [BitVec.toNat_cast, BitVec.extractLsb_toNat, Nat.shiftRight_eq_div_pow]
  rfl

theorem toNat_unpackMantissa :
    (@unpackMantissa .binary64 b).toNat = b.toNat % 2 ^ 52 := by
  unfold unpackMantissa
  rw [BitVec.toNat_cast, BitVec.extractLsb_toNat, Nat.shiftRight_zero]
  rfl

end

/-- A sign as it is read off the first bit: true means minus. -/
def isMinus : Sign → Bool
  | .negative => true
  | .positive => false

/-- The parts of a double that arithmetic has unpacked. -/
def ofUnpacked : UnpackedFloat → Decimal.Binary
  | .notANumber => .nan
  | .infinity sign => .infinity (isMinus sign)
  | .zero sign => .finite (isMinus sign) 0 Decimal.leastExponent
  | .finite sign m e _ => .finite (isMinus sign) m e

theorem isMinus_ofBitVec (sign : BitVec 1) : isMinus (.ofBitVec sign) = (sign.toNat == 1) := by
  revert sign
  decide

/-- **The parts that are read off the bits are those that arithmetic unpacks.** -/
theorem ofFloat_eq (x : Float) : Decimal.Binary.ofFloat x = ofUnpacked x.toModel.unpack := by
  have hsign := toNat_unpackSign x.toBits.toBitVec
  have hexponent := toNat_unpackExponent x.toBits.toBitVec
  have hmantissa := toNat_unpackMantissa x.toBits.toBitVec
  rw [UInt64.toNat_toBitVec] at hsign hexponent hmantissa
  have hminus : (x.toBits.toNat / 2 ^ 63 == 1) =
      isMinus (.ofBitVec (@unpackSign .binary64 x.toBits.toBitVec)) := by
    have hbit : x.toBits.toNat / 2 ^ 63 % 2 = x.toBits.toNat / 2 ^ 63 :=
      Nat.mod_eq_of_lt (Nat.div_lt_of_lt_mul x.toBits.toNat_lt)
    rw [isMinus_ofBitVec, hsign, hbit]
  have hones : (@unpackExponent .binary64 x.toBits.toBitVec).toNat = 2047 ↔
      @unpackExponent .binary64 x.toBits.toBitVec = -1#11 :=
    ⟨fun h => BitVec.eq_of_toNat_eq h, congrArg BitVec.toNat⟩
  have hzeros : (@unpackExponent .binary64 x.toBits.toBitVec).toNat = 0 ↔
      @unpackExponent .binary64 x.toBits.toBitVec = 0#11 :=
    ⟨fun h => BitVec.eq_of_toNat_eq h, congrArg BitVec.toNat⟩
  have hnone : (@unpackMantissa .binary64 x.toBits.toBitVec).toNat = 0 ↔
      @unpackMantissa .binary64 x.toBits.toBitVec = 0#52 :=
    ⟨fun h => BitVec.eq_of_toNat_eq h, congrArg BitVec.toNat⟩
  show _ = ofUnpacked (UnpackedFloat.unpack .binary64 x.toBits.toBitVec)
  unfold Decimal.Binary.ofFloat UnpackedFloat.unpack
  simp only [Nat.pow_eq, hminus, ← hexponent, ← hmantissa, hones, hzeros, hnone]
  split
  · -- The exponent of infinity and of what is no number.
    split <;> rfl
  · split
    · next hleast =>
      split
      · next hnone => rw [hnone]; rfl
      · rw [hleast]; rfl
    · refine Decimal.Binary.finite.injEq .. ▸ ⟨rfl, (toNat_leading_one _).symm, ?_⟩
      show _ - 1 + -1074 = _ - (1023 + 52)
      omega

end PuzzlePlayback.Double
