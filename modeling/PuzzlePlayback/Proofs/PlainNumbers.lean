import PuzzlePlayback.Decimal.Notation
import PuzzlePlayback.Proofs.DecimalLiterals
import PuzzlePlayback.Proofs.ExactDoubles
import PuzzlePlayback.Proofs.ShortestDigits

/-!
# Numbers in plain decimals

How a number is written, said without the writer. A number of the size of a significand that is
whole is written as a whole number is. Any other one is written with digits, and behind a point if
there is more, so that the decimal is rounded to the number (`NumberText`).

The digits come from the search for the shortest ones. Here they are laid out: zeros are put
between them and the point where they do not reach it (`positional_of_nonneg`,
`isPlain_of_neg`).

Main result: `numberText_render`.
-/

namespace PuzzlePlayback.Decimal

open Calculator.Fraction (literalValue literalValue_eq)
open Calculator.Token (toList_toString_int toList_toString_nat)

/-! ## Digits -/

theorem digitsValue_eq (cs : List Char) : digitsValue cs = Nat.ofDigitChars 10 cs 0 := by
  rw [digitsValue, Nat.ofDigitChars_eq_foldl]

theorem digitsValue_toDigits (n : Nat) : digitsValue (Nat.toDigits 10 n) = n := by
  rw [digitsValue_eq, Nat.ofDigitChars_ten_toDigits]

/-- Zeros before the digits count nothing. -/
theorem digitsValue_zeros_append (k : Nat) (cs : List Char) :
    digitsValue (List.replicate k '0' ++ cs) = digitsValue cs := by
  rw [digitsValue_eq, digitsValue_eq, Nat.ofDigitChars_append, Nat.ofDigitChars_replicate_zero,
    Nat.mul_zero]

theorem isDigit_of_mem_toDigits {n : Nat} {c : Char} (h : c ∈ Nat.toDigits 10 n) :
    c.isDigit = true :=
  Nat.isDigit_of_mem_toDigits (by decide) (by decide) h

/-- A number has no zero before its digits. By induction on the digits from the last one back. -/
theorem head?_toDigits_ne {n : Nat} (hn : 0 < n) : (Nat.toDigits 10 n).head? ≠ some '0' := by
  induction n using Nat.strongRecOn with
  | ind n ih =>
    rcases Nat.lt_or_ge n 10 with hlt | hge
    · rw [Nat.toDigits_of_lt_base hlt]
      interval_cases n <;> decide
    · rw [Nat.toDigits_of_base_le (by decide) hge, List.head?_append_of_ne_nil _ (by simp)]
      exact ih (n / 10) (Nat.div_lt_self hn (by decide)) (Nat.div_pos hge (by decide))

/-- A power of ten puts zeros behind the digits. -/
theorem toDigits_mul_ten_pow {n : Nat} (hn : 0 < n) (k : Nat) :
    Nat.toDigits 10 (n * 10 ^ k) = Nat.toDigits 10 n ++ List.replicate k '0' := by
  induction k with
  | zero => rw [pow_zero, mul_one, List.replicate_zero, List.append_nil]
  | succ k ih =>
    have hpos : 0 < n * 10 ^ k := Nat.mul_pos hn (Nat.pow_pos (by decide))
    have hlast : n * 10 ^ (k + 1) = 10 * (n * 10 ^ k) + 0 := by ring
    rw [hlast, ← Nat.toDigits_append_toDigits (by decide) hpos (by decide), ih,
      List.replicate_succ', List.append_assoc]
    rfl

/-! ## The layout -/

/-- A number in plain decimals: some digits, without a zero too many before them, and a point if
digits follow. -/
structure IsPlain (text whole decimals : List Char) : Prop where
  parts : text = whole ++ if decimals = [] then [] else '.' :: decimals
  digit : ∀ c ∈ whole ++ decimals, c.isDigit = true
  nonempty : whole ≠ []
  leading : whole.head? = some '0' → whole = ['0']

theorem isPlain_toDigits (n : Nat) : IsPlain (Nat.toDigits 10 n) (Nat.toDigits 10 n) [] := by
  refine ⟨(List.append_nil _).symm, fun c hc => ?_, by simp, fun hzero => ?_⟩
  · rw [List.append_nil] at hc
    exact isDigit_of_mem_toDigits hc
  · rcases Nat.eq_zero_or_pos n with rfl | hn
    · rfl
    · exact absurd hzero (head?_toDigits_ne hn)

theorem literalValue_toDigits (n : Nat) : literalValue (Nat.toDigits 10 n) [] = n := by
  rw [literalValue_eq, List.append_nil, digitsValue_toDigits]
  simp

variable {n : Nat}

theorem toList_zeros (n : Nat) : (zeros n).toList = List.replicate n '0' := String.toList_ofList

theorem length_toString (n : Nat) : (toString n).length = (Nat.toDigits 10 n).length := by
  rw [← String.length_toList, toList_toString_nat]

/-- With zeros behind the digits the text is that of a whole number. -/
theorem positional_of_nonneg (hn : 0 < n) (k : Nat) :
    positional (toString n) ((toString n).length + (k : Int)) false = toString (n * 10 ^ k) := by
  have hpos : 0 < (Nat.toDigits 10 n).length := Nat.length_toDigits_pos
  have hlength := length_toString n
  unfold positional
  dsimp only
  rw [if_neg (by omega), if_pos (by omega), ← String.toList_inj, String.toList_append,
    String.toList_append, toList_zeros, toList_toString_nat, toList_toString_nat,
    toDigits_mul_ten_pow hn, show ((toString n).length + (k : Int) -
      (toString n).length).toNat = k by omega]
  exact List.append_nil _

/-- With the point before some of the digits these are decimals. -/
theorem isPlain_of_neg (hn : 0 < n) {k : Nat} (hk : 0 < k) : ∃ whole decimals,
    IsPlain (positional (toString n) ((toString n).length - (k : Int)) false).toList whole
        decimals ∧
      literalValue whole decimals = n * 10 ^ (-k : Int) := by
  have hpos : 0 < (Nat.toDigits 10 n).length := Nat.length_toDigits_pos
  have hlength := length_toString n
  have hvalue (whole decimals : List Char) (hdigits : digitsValue (whole ++ decimals) = n)
      (hk : decimals.length = k) : literalValue whole decimals = n * 10 ^ (-k : Int) := by
    rw [literalValue_eq, hdigits, hk, zpow_neg, zpow_natCast, div_eq_mul_inv]
  unfold positional
  dsimp only
  split
  · next hle =>
    -- The point is before all of the digits.
    generalize hzeros : (-((toString n).length - (k : Int))).toNat = z
    refine ⟨['0'], List.replicate z '0' ++ Nat.toDigits 10 n, ⟨?_, ?_, nofun, fun _ => rfl⟩,
      hvalue _ _ ?_ ?_⟩
    · rw [String.toList_append, String.toList_append, toList_zeros, toList_toString_nat,
        if_neg (by simp)]
      rfl
    · intro c hc
      simp only [List.mem_append, List.mem_singleton, List.mem_replicate] at hc
      rcases hc with rfl | ⟨-, rfl⟩ | hc
      · rfl
      · rfl
      · exact isDigit_of_mem_toDigits hc
    · rw [← List.append_assoc, ← List.replicate_one, List.replicate_append_replicate,
        digitsValue_zeros_append, digitsValue_toDigits]
    · rw [List.length_append, List.length_replicate]
      omega
  · next hgt =>
    rw [if_neg (by omega)]
    generalize hwhole : ((toString n).length - (k : Int)).toNat = w
    have hall := List.take_append_drop w (Nat.toDigits 10 n)
    have hdrop : ((Nat.toDigits 10 n).drop w).length = k := by
      rw [List.length_drop]
      omega
    refine ⟨(Nat.toDigits 10 n).take w, (Nat.toDigits 10 n).drop w, ⟨?_, ?_, ?_, ?_⟩,
      hvalue _ _ ?_ hdrop⟩
    · have hne : (Nat.toDigits 10 n).drop w ≠ [] := List.ne_nil_of_length_pos (hdrop ▸ hk)
      rw [String.toList_append, String.toList_append, if_neg hne]
      show ((toString n).take w).copy.toList ++ ['.'] ++ ((toString n).drop w).copy.toList = _
      rw [String.toList_copy_take, String.toList_copy_drop, toList_toString_nat,
        List.append_assoc]
      rfl
    · rw [hall]
      exact fun c => isDigit_of_mem_toDigits
    · exact List.ne_nil_of_length_pos (by rw [List.length_take]; omega)
    · intro hzero
      rw [List.head?_take, if_neg (by omega)] at hzero
      exact absurd hzero (head?_toDigits_ne hn)
    · rw [hall, digitsValue_toDigits]

/-! ## Doubles above zero -/

section

variable {m : Nat} {e : Int}

/-- Zero is not rounded to a double above it. -/
theorem digits_pos_of_holds (h : Canonical m e) {digits : Nat} {exponent : Int}
    (hv : (Interval.ofBinary m e).Holds (digits * 10 ^ exponent)) : 0 < digits := by
  obtain ⟨-, hle⟩ := Canonical.gapBelow_pos m e
  have htwo : (0 : ℚ) < 2 ^ e := by positivity
  have hone : (1 : ℚ) ≤ m := Nat.one_le_cast.2 h.pos
  have hvalue : (2 : ℚ) ^ e ≤ m * 2 ^ e := le_mul_of_one_le_left htwo.le hone
  have hpos : (0 : ℚ) < digits * 10 ^ exponent := by
    rw [Canonical.holds_ofBinary_iff h] at hv
    split at hv <;> linarith [hv.1]
  exact Nat.cast_pos.1 (pos_of_mul_pos_left hpos (by positivity))

/-- A whole number of the size of a significand has no other whole number rounded to it. -/
theorem eq_of_holds (h : Canonical m e) {n k : Nat} (hvalue : (m * 2 ^ e : ℚ) = n)
    (hsize : n < 2 ^ 53) (hk : (Interval.ofBinary m e).Holds k) : k = n := by
  have he : e ≤ 0 := by
    by_contra hpos
    have hm : ((2 ^ 52 : Nat) : ℚ) ≤ m := Nat.cast_le.2 (h.normal (by omega))
    have htwo : (2 : ℚ) ^ (1 : Int) ≤ 2 ^ e := zpow_le_zpow_right₀ (by norm_num) (by omega)
    have hn : (n : ℚ) < (2 ^ 53 : Nat) := Nat.cast_lt.2 hsize
    have hmul := mul_le_mul hm htwo (by positivity) (by positivity)
    rw [hvalue] at hmul
    norm_num at hmul hn
    linarith
  have hunit : (2 : ℚ) ^ e ≤ 1 := zpow_le_one_of_nonpos₀ (by norm_num) he
  obtain ⟨-, hle⟩ := Canonical.gapBelow_pos m e
  rw [Canonical.holds_ofBinary_iff h, hvalue] at hk
  have hlow : (n : ℚ) < k + 1 := by split at hk <;> linarith [hk.1]
  have hhigh : (k : ℚ) < n + 1 := by split at hk <;> linarith [hk.2]
  have hlow : n < k + 1 := by exact_mod_cast hlow
  have hhigh : k < n + 1 := by exact_mod_cast hhigh
  omega

/-- Plain decimals are the shortest digits, laid out without a limit. -/
theorem renderFinite_plain (h : 0 < m) :
    plain.renderFinite m e = positional (toString (shortest .up m e).digits)
      ((toString (shortest .up m e).digits).length + (shortest .up m e).exponent) false :=
  if_neg h.ne'

/-- **A whole number is written as such.** -/
theorem renderFinite_whole (h : Canonical m e) (hgreat : e ≤ 971) {n : Nat}
    (hvalue : (m * 2 ^ e : ℚ) = n) (hsize : n < 2 ^ 53) :
    plain.renderFinite m e = toString n := by
  obtain ⟨hholds, hwhole⟩ := shortest_spec h hgreat .up
  obtain ⟨k, hk⟩ := Int.eq_ofNat_of_zero_le (hwhole ⟨n, hvalue⟩)
  rw [renderFinite_plain h.pos]
  generalize shortest .up m e = d at *
  have hpos := digits_pos_of_holds h hholds
  rw [hk, zpow_natCast] at hholds
  have hn : d.digits * 10 ^ k = n := eq_of_holds h hvalue hsize (by exact_mod_cast hholds)
  rw [hk, positional_of_nonneg hpos, hn]

/-- **A number is written in plain decimals that are rounded to it**, without decimals if it is
whole. -/
theorem renderFinite_isPlain (h : Canonical m e) (hgreat : e ≤ 971) : ∃ whole decimals,
    IsPlain (plain.renderFinite m e).toList whole decimals ∧
      RoundsTo (literalValue whole decimals) m e ∧
      ((∃ n : Nat, (m * 2 ^ e : ℚ) = n) → decimals = []) := by
  obtain ⟨hholds, hwhole⟩ := shortest_spec h hgreat .up
  rw [renderFinite_plain h.pos]
  generalize shortest .up m e = d at *
  have hpos := digits_pos_of_holds h hholds
  rcases le_or_gt 0 d.exponent with hnonneg | hneg
  · obtain ⟨k, hk⟩ := Int.eq_ofNat_of_zero_le hnonneg
    refine ⟨Nat.toDigits 10 (d.digits * 10 ^ k), [], ?_, ?_, fun _ => rfl⟩
    · rw [hk, positional_of_nonneg hpos, toList_toString_nat]
      exact isPlain_toDigits _
    · rw [literalValue_toDigits]
      refine Canonical.rounds_of_holds h ?_
      rw [hk, zpow_natCast] at hholds
      exact_mod_cast hholds
  · obtain ⟨k, hk⟩ : ∃ k : Nat, d.exponent = -k := ⟨(-d.exponent).toNat, by omega⟩
    obtain ⟨whole, decimals, hplain, hvalue⟩ := isPlain_of_neg hpos (show 0 < k by omega)
    refine ⟨whole, decimals, ?_, ?_, fun hn => absurd (hwhole hn) (by omega)⟩
    · rw [hk]
      exact hplain
    · rw [hvalue, ← hk]
      exact Canonical.rounds_of_holds h hholds

end

/-! ## Numbers and their texts -/

open Float.Model.UnpackedFloat (Sign)

/-- The double is the number `m * 2 ^ e`. -/
inductive IsNumber (x : Float) : Int → Int → Prop
  | zero {sign : Sign} : x.toModel.unpack = .zero sign → IsNumber x 0 0
  | positive {m : Nat} {e : Int} {h : 0 < m} :
      x.toModel.unpack = .finite .positive m e h → IsNumber x m e
  | negative {m : Nat} {e : Int} {h : 0 < m} :
      x.toModel.unpack = .finite .negative m e h → IsNumber x (-m) e

/-- How a number is written. What is no number has a name. A whole number that has no more binary
digits than a significand is written as it is, without a point and zero without a sign. Any other
number is written in plain decimals that are rounded to it, without a point if it is whole. -/
inductive NumberText (x : Float) : String → Prop
  | undefined : x.toModel.unpack = .notANumber → NumberText x "NaN"
  | infinite : x.toModel.unpack = .infinity .positive → NumberText x "inf"
  | minusInfinite : x.toModel.unpack = .infinity .negative → NumberText x "-inf"
  | whole {m e n : Int} : IsNumber x m e → (m * 2 ^ e : ℚ) = n → n.natAbs < 2 ^ 53 →
      NumberText x (toString n)
  | other {m e : Int} {text : String} {digits whole decimals : List Char} : IsNumber x m e →
      (∀ n : Int, (m * 2 ^ e : ℚ) = n → 2 ^ 53 ≤ n.natAbs ∧ decimals = []) →
      text.toList = (if m < 0 then ['-'] else []) ++ digits → IsPlain digits whole decimals →
      RoundsTo (if m < 0 then -literalValue whole decimals else literalValue whole decimals) m e →
      NumberText x text

open Float.Model Float.Model.UnpackedFloat in
/-- The parts of a double are as many digits as it can have. -/
theorem canonical_of_unpack {x : Float} {sign : Sign} {m : Nat} {e : Int} {h : 0 < m}
    (hx : x.toModel.unpack = .finite sign m e h) : Canonical m e ∧ e ≤ 971 := by
  replace hx : UnpackedFloat.unpack .binary64 x.toBits.toBitVec = .finite sign m e h := hx
  have hbias : ((Format.binary64.exponentBias : Int) +
      (Format.binary64.mantissaBitsWithoutImplicit : Int)) = 1075 := rfl
  unfold UnpackedFloat.unpack at hx
  dsimp only at hx
  rw [hbias] at hx
  have hmantissa : (@unpackMantissa .binary64 x.toBits.toBitVec).toNat < 2 ^ 52 :=
    (@unpackMantissa .binary64 x.toBits.toBitVec).isLt
  have hexponent : (@unpackExponent .binary64 x.toBits.toBitVec).toNat < 2 ^ 11 :=
    (@unpackExponent .binary64 x.toBits.toBitVec).isLt
  split at hx
  · split at hx <;> cases hx
  · next hones =>
    have hlast : (@unpackExponent .binary64 x.toBits.toBitVec).toNat ≠ 2047 :=
      fun heq => hones (BitVec.eq_of_toNat_eq heq)
    split at hx
    · next hzeros =>
      split at hx
      · cases hx
      · obtain ⟨-, rfl, rfl⟩ := UnpackedFloat.finite.inj hx
        have hleast : (@unpackExponent .binary64 x.toBits.toBitVec).toNat = 0 :=
          congrArg BitVec.toNat hzeros
        exact ⟨⟨h, by omega, by omega, by omega⟩, by omega⟩
    · next hzeros =>
      obtain ⟨-, rfl, rfl⟩ := UnpackedFloat.finite.inj hx
      have hleast : (@unpackExponent .binary64 x.toBits.toBitVec).toNat ≠ 0 :=
        fun heq => hzeros (BitVec.eq_of_toNat_eq heq)
      have hone := Double.toNat_leading_one (@unpackMantissa .binary64 x.toBits.toBitVec)
      exact ⟨⟨h, by omega, by omega, by omega⟩, by omega⟩

/-! ## The writer -/

section

variable {x : Float} {m : Nat} {e : Int} {h : 0 < m}

/-- The number is whole and small, and written as such, or it is written in plain decimals. -/
theorem renderFinite_cases (h : Canonical m e) (hgreat : e ≤ 971) :
    (∃ n : Nat, (m * 2 ^ e : ℚ) = n ∧ n < 2 ^ 53 ∧ plain.renderFinite m e = toString n) ∨
    ∃ whole decimals, IsPlain (plain.renderFinite m e).toList whole decimals ∧
      RoundsTo (literalValue whole decimals) m e ∧
      ∀ n : Nat, (m * 2 ^ e : ℚ) = n → 2 ^ 53 ≤ n ∧ decimals = [] := by
  by_cases hsmall : ∃ n : Nat, (m * 2 ^ e : ℚ) = n ∧ n < 2 ^ 53
  · obtain ⟨n, hvalue, hsize⟩ := hsmall
    exact .inl ⟨n, hvalue, hsize, renderFinite_whole h hgreat hvalue hsize⟩
  · obtain ⟨whole, decimals, hplain, hrounds, hwhole⟩ := renderFinite_isPlain h hgreat
    exact .inr ⟨whole, decimals, hplain, hrounds, fun n hn =>
      ⟨Nat.le_of_not_lt fun hsize => hsmall ⟨n, hn, hsize⟩, hwhole ⟨n, hn⟩⟩⟩

/-- The text of a double above zero. -/
theorem numberText_positive (hx : x.toModel.unpack = .finite .positive m e h) :
    NumberText x (plain.renderFinite m e) := by
  obtain ⟨hcanonical, hgreat⟩ := canonical_of_unpack hx
  rcases renderFinite_cases hcanonical hgreat with
    ⟨n, hvalue, hsize, htext⟩ | ⟨whole, decimals, hplain, hrounds, hwhole⟩
  · rw [htext]
    exact .whole (n := n) (.positive hx) (by exact_mod_cast hvalue) (by omega)
  · have hsign : ¬(m : Int) < 0 := by omega
    refine .other (.positive hx) (fun n hn => ?_) ?_ hplain (by rwa [if_neg hsign])
    · have hpos : (0 : ℚ) ≤ n := by
        rw [← hn]
        positivity
      obtain ⟨k, rfl⟩ := Int.eq_ofNat_of_zero_le (Int.cast_nonneg_iff.1 hpos)
      exact hwhole k (by exact_mod_cast hn)
    · rw [if_neg hsign, List.nil_append]

/-- The text of a double below zero. -/
theorem numberText_negative (hx : x.toModel.unpack = .finite .negative m e h) :
    NumberText x ("-" ++ plain.renderFinite m e) := by
  obtain ⟨hcanonical, hgreat⟩ := canonical_of_unpack hx
  have hvalue_pos : (0 : ℚ) < m * 2 ^ e := mul_pos (Nat.cast_pos.2 h) (by positivity)
  rcases renderFinite_cases hcanonical hgreat with
    ⟨n, hvalue, hsize, htext⟩ | ⟨whole, decimals, hplain, hrounds, hwhole⟩
  · have hn : 0 < n := Nat.cast_pos.1 (hvalue ▸ hvalue_pos)
    have hminus : "-" ++ toString n = toString (-(n : Int)) := by
      rw [← String.toList_inj, toList_toString_int, if_neg (by omega), String.toList_append,
        toList_toString_nat, Int.neg_neg, Int.toNat_natCast]
      rfl
    rw [htext, hminus]
    refine .whole (.negative hx) ?_ (by omega)
    push_cast
    rw [neg_mul, hvalue]
  · have hsign : -(m : Int) < 0 := by omega
    refine .other (.negative hx) (fun n hn => ?_) ?_ hplain ?_
    · push_cast at hn
      obtain ⟨k, rfl⟩ : ∃ k : Nat, n = -k := by
        have hneg : ((n : Int) : ℚ) < 0 := by
          rw [← hn]
          linarith
        exact ⟨(-n).toNat, by have := Int.cast_lt_zero.1 hneg; omega⟩
      rw [Int.natAbs_neg, Int.natAbs_natCast]
      refine hwhole k ?_
      push_cast at hn
      linarith
    · rw [if_pos hsign, String.toList_append]
      rfl
    · rw [if_pos hsign]
      exact hrounds.neg

/-- **Numbers are written as they are.** -/
theorem numberText_render (x : Float) : NumberText x (if x == 0 then "0" else plain.render x) := by
  have hzero : (0 : Float).toModel.unpack = .zero .positive := rfl
  have hcompare : (x == 0) = x.toModel.unpack.beq (0 : Float).toModel.unpack := rfl
  rw [hcompare, hzero, Layout.render, Double.ofFloat_eq]
  cases hx : x.toModel.unpack with
  | notANumber => exact .undefined hx
  | infinity sign =>
    cases sign with
    | positive => exact .infinite hx
    | negative => exact .minusInfinite hx
  | zero sign => exact .whole (n := 0) (.zero hx) (by simp) (by decide)
  | finite sign m e h =>
    cases sign with
    | positive => exact numberText_positive hx
    | negative => exact numberText_negative hx

end

end PuzzlePlayback.Decimal
