import Mathlib.Data.List.Induction
import PuzzlePlayback.Proofs.ExactFractions
import PuzzlePlayback.Proofs.Spelling

/-!
# Decimal literals are read exactly

A literal is made of digits and at most one point (`IsLiteral`). Its value is the sum of its digits
by their places: a digit counts a tenth of what the one before it counts (`placeValue`). A literal
is read as the fraction of that value, unless it has more than twelve decimals or the fraction does
not fit. Then it is an overflow. How many digits there are, and whether the first of them are zeros,
makes no difference.

The decimals are counted in bytes, in a 32-bit word. A digit is one byte, so the count is right for
every text shorter than such a word can count; what is not a literal has another error, or an
overflow, but no value.

Main result: `literals_are_read_exactly`.
-/

namespace PuzzlePlayback.Calculator.Fraction

open Decimal Token

/-! ## Literals -/

/-- Some digits before the point and some after it, at least one in all. Without decimals the
point may be missing. -/
structure IsLiteral (text whole decimals : List Char) : Prop where
  parts : text = whole ∧ decimals = [] ∨ text = whole ++ '.' :: decimals
  digit : ∀ c ∈ whole ++ decimals, c.isDigit = true
  nonempty : whole ++ decimals ≠ []

/-- The value of some digits, when the first one counts so much. -/
def placeValue (weight : ℚ) : List Char → ℚ
  | [] => 0
  | c :: cs => ((c.toNat - '0'.toNat : Nat) : ℚ) * weight + placeValue (weight / 10) cs

/-- The value of a literal. The last digit before the point counts one. -/
def literalValue (whole decimals : List Char) : ℚ :=
  placeValue (10 ^ (whole.length - 1 : Int)) (whole ++ decimals)

theorem digitsValue_snoc (cs : List Char) (c : Char) :
    digitsValue (cs ++ [c]) = 10 * digitsValue cs + (c.toNat - '0'.toNat) := by
  rw [digitsValue, List.foldl_append]
  rfl

theorem digitsValue_cons (c : Char) (cs : List Char) :
    digitsValue (c :: cs) = (c.toNat - '0'.toNat) * 10 ^ cs.length + digitsValue cs := by
  induction cs using List.reverseRecOn with
  | nil =>
    show 10 * 0 + (c.toNat - '0'.toNat) = _ * 1 + 0
    omega
  | append_singleton cs d ih =>
    rw [← List.cons_append, digitsValue_snoc, digitsValue_snoc, ih, List.length_append,
      List.length_singleton, pow_succ]
    ring

/-- The places of some digits, counted from the last one instead of the first. -/
theorem placeValue_eq (weight : ℚ) (cs : List Char) :
    placeValue weight cs = digitsValue cs * (10 * weight / 10 ^ cs.length) := by
  induction cs generalizing weight with
  | nil =>
    show (0 : ℚ) = (0 : Nat) * _
    rw [Nat.cast_zero, zero_mul]
  | cons c cs ih =>
    rw [placeValue, ih, digitsValue_cons, List.length_cons, pow_succ]
    push_cast
    field_simp

theorem literalValue_eq (whole decimals : List Char) :
    literalValue whole decimals = digitsValue (whole ++ decimals) / 10 ^ decimals.length := by
  rw [literalValue, placeValue_eq, zpow_sub_one₀ (by norm_num), zpow_natCast, List.length_append,
    pow_add]
  field_simp

/-! ## The parts of a literal -/

section

variable {cs whole decimals : List Char}

theorem IsLiteral.split (h : IsLiteral cs whole decimals) :
    cs.takeWhile (· ≠ '.') = whole ∧ (cs.dropWhile (· ≠ '.')).drop 1 = decimals := by
  have hwhole : ∀ c ∈ whole, decide (c ≠ '.') = true := fun c hc => by
    simpa using (isBlank_of_isDigit (h.digit c (List.mem_append_left _ hc))).2
  rcases h.parts with ⟨rfl, rfl⟩ | rfl
  · have hsplit := splitWhile_append hwhole [] nofun
    rw [List.append_nil] at hsplit
    rw [hsplit.1, hsplit.2]
    exact ⟨rfl, rfl⟩
  · have hsplit := splitWhile_append hwhole ('.' :: decimals) (by simp)
    rw [hsplit.1, hsplit.2]
    exact ⟨rfl, rfl⟩

/-- Where both parts are digits and not both are empty, there is a literal. -/
theorem isLiteral_of_split (hwhole : cs.takeWhile (· ≠ '.') = whole)
    (hdecimals : (cs.dropWhile (· ≠ '.')).drop 1 = decimals) (hnonempty : whole ++ decimals ≠ [])
    (hdigit : ∀ c ∈ whole ++ decimals, c.isDigit = true) : IsLiteral cs whole decimals := by
  refine ⟨?_, hdigit, hnonempty⟩
  have hjoined := List.takeWhile_append_dropWhile (p := fun c => decide (c ≠ '.')) (l := cs)
  have hhead := List.head?_dropWhile_not (fun c => decide (c ≠ '.')) cs
  rw [hwhole] at hjoined
  cases hrest : cs.dropWhile (· ≠ '.') with
  | nil =>
    rw [hrest] at hjoined hdecimals
    rw [List.append_nil] at hjoined
    exact .inl ⟨hjoined.symm, hdecimals.symm⟩
  | cons c rest =>
    rw [hrest] at hjoined hdecimals hhead
    obtain rfl : c = '.' := by simpa using hhead
    rw [← hjoined, ← hdecimals]
    exact .inr rfl

/-- Digits are one byte each. -/
theorem utf8ByteSize_digits (h : ∀ c ∈ cs, c.isDigit = true) :
    (String.ofList cs).utf8ByteSize = cs.length := by
  induction cs with
  | nil => rfl
  | cons c cs ih =>
    obtain ⟨hdigit, hrest⟩ := List.forall_mem_cons.1 h
    have hascii : c.toNat ≤ 57 := (Char.isDigit_iff_toNat.1 hdigit).2
    have hsize : c.utf8Size = 1 := Char.utf8Size_eq_one_iff.2 (by
      rw [UInt32.le_iff_toNat_le]
      exact Nat.le_trans hascii (by decide))
    rw [String.ofList_cons, String.utf8ByteSize_append, String.utf8ByteSize_singleton, hsize,
      ih hrest, List.length_cons, Nat.add_comm]

end

/-! ## Reading -/

section

variable {text : String} {whole decimals : List Char}

theorem places_eq (hsize : text.utf8ByteSize < UInt32.size)
    (h : IsLiteral text.toList whole decimals) :
    (String.ofList decimals).utf8ByteSize.toUInt32.toNat = decimals.length := by
  have hbytes : (String.ofList decimals).utf8ByteSize = decimals.length :=
    utf8ByteSize_digits fun c hc => h.digit c (List.mem_append_right _ hc)
  have hshort : (String.ofList decimals).utf8ByteSize ≤ text.utf8ByteSize := by
    rcases h.parts with ⟨_, rfl⟩ | hparts
    · exact Nat.zero_le _
    · rw [← String.ofList_toList (s := text), hparts, String.ofList_append,
        String.utf8ByteSize_append, String.ofList_cons, String.utf8ByteSize_append]
      omega
  rw [hbytes] at hshort ⊢
  exact Nat.mod_eq_of_lt (Nat.lt_of_le_of_lt hshort hsize)

/-- A literal with few enough decimals is the quotient of its digits and a power of ten. -/
theorem ofLiteral_of_isLiteral (hsize : text.utf8ByteSize < UInt32.size)
    (h : IsLiteral text.toList whole decimals) :
    ofLiteral text = if mostDecimals < decimals.length then .error .overflow
      else ofQuotient (digitsValue (whole ++ decimals)) (Nat.pow 10 decimals.length) := by
  have hplaces := places_eq hsize h
  have hdigit : (whole ++ decimals).all Char.isDigit = true := List.all_eq_true.2 h.digit
  have hempty : (whole.isEmpty && decimals.isEmpty) = false := by
    have hne := h.nonempty
    cases whole with
    | nil => simpa using hne
    | cons c cs => rfl
  obtain ⟨hwhole, hdecimals⟩ := h.split
  simp only [ofLiteral, hwhole, hdecimals, hplaces, hdigit, hempty, Bool.false_eq_true, if_false,
    Bool.not_true]

/-- What is no literal is malformed, or it has too many bytes after its point. -/
theorem ofLiteral_of_not (h : ¬∃ whole decimals, IsLiteral text.toList whole decimals) :
    ofLiteral text = .error (.malformed ("bad number `" ++ text ++ "`")) ∨
      ofLiteral text = .error .overflow := by
  unfold ofLiteral
  extract_lets cs whole decimals places bad
  split
  · exact .inl rfl
  · next hempty =>
    split
    · exact .inr rfl
    · split
      · exact .inl rfl
      · next hdigit =>
        refine absurd ⟨whole, decimals, isLiteral_of_split rfl rfl ?_ ?_⟩ h
        · simpa using hempty
        · rw [Bool.not_eq_true, Bool.not_eq_false'] at hdigit
          exact List.all_eq_true.1 hdigit

end

/-- The quotient of some digits and a power of ten fits if its numerator does. -/
theorem fits_iff {n places : Nat} (hplaces : places ≤ mostDecimals) :
    Fits ((n : ℚ) / 10 ^ places) ↔ ((n : ℚ) / 10 ^ places).num ≤ wordLimit := by
  have hnonneg : 0 ≤ ((n : ℚ) / 10 ^ places).num := Rat.num_nonneg.2 (by positivity)
  have hten : ((10 ^ places : Nat) : Int) ≠ 0 := by positivity
  have hlowest := (lowestTerms_div n hten).2
  push_cast at hlowest
  have hden : ((n : ℚ) / 10 ^ places).den ≤ wordLimit := by
    rw [hlowest]
    calc lowestDen n (10 ^ places) ≤ ((10 : Int) ^ places).natAbs := Nat.div_le_self _ _
      _ = 10 ^ places := by rw [Int.natAbs_pow]; rfl
      _ ≤ 10 ^ mostDecimals := Nat.pow_le_pow_right (by decide) hplaces
      _ ≤ wordLimit := by decide
  rw [Fits, and_iff_left hden]
  omega

section

variable {text : String} {whole decimals : List Char}

theorem isExactly_ofLiteral (hsize : text.utf8ByteSize < UInt32.size)
    (h : IsLiteral text.toList whole decimals) (hplaces : decimals.length ≤ mostDecimals) :
    IsExactly (ofLiteral text) (some (literalValue whole decimals)) := by
  have hten : ((Nat.pow 10 decimals.length : Nat) : Int) ≠ 0 :=
    Int.natCast_ne_zero.2 (Nat.pow_pos (by decide)).ne'
  have hcast : (((Nat.pow 10 decimals.length : Nat) : Int) : ℚ) = 10 ^ decimals.length := by
    rw [Nat.pow_eq]
    push_cast
    rfl
  have hexact := isExactly_ofQuotient (digitsValue (whole ++ decimals)) (Nat.pow 10 decimals.length)
  rw [quotient?, if_neg (Int.cast_ne_zero.2 hten), hcast, Int.cast_natCast] at hexact
  rwa [ofLiteral_of_isLiteral hsize h, if_neg (Nat.not_lt.2 hplaces), literalValue_eq]

/-- Where a literal is no fraction, it is an overflow. -/
theorem ofLiteral_eq_ok_or_overflow (hsize : text.utf8ByteSize < UInt32.size)
    (h : IsLiteral text.toList whole decimals) :
    (∃ q, ofLiteral text = .ok q ∧ decimals.length ≤ mostDecimals ∧
      Fits (literalValue whole decimals) ∧ q.toRat = literalValue whole decimals) ∨
    ofLiteral text = .error .overflow := by
  by_cases hplaces : decimals.length ≤ mostDecimals
  · have hexact := isExactly_ofLiteral hsize h hplaces
    unfold IsExactly at hexact
    dsimp only at hexact
    split at hexact
    · next hfits =>
      obtain ⟨q, hq, hvalue⟩ := hexact
      exact .inl ⟨q, hq, hplaces, hfits, hvalue⟩
    · exact .inr hexact
  · rw [ofLiteral_of_isLiteral hsize h, if_pos (Nat.lt_of_not_le hplaces)]
    exact .inr rfl

/-- **What is read and as what.** -/
theorem ofLiteral_eq_ok_iff (hsize : text.utf8ByteSize < UInt32.size) (q : Fraction) :
    ofLiteral text = .ok q ↔ ∃ whole decimals, IsLiteral text.toList whole decimals ∧
      decimals.length ≤ mostDecimals ∧ (literalValue whole decimals).num ≤ wordLimit ∧
      q.toRat = literalValue whole decimals := by
  constructor
  · intro hq
    by_cases hliteral : ∃ whole decimals, IsLiteral text.toList whole decimals
    · obtain ⟨whole, decimals, h⟩ := hliteral
      rcases ofLiteral_eq_ok_or_overflow hsize h with ⟨r, hr, hplaces, hfits, hvalue⟩ | hoverflow
      · obtain rfl : r = q := Except.ok.inj (hr.symm.trans hq)
        refine ⟨whole, decimals, h, hplaces, ?_, hvalue⟩
        rw [literalValue_eq] at hfits ⊢
        exact (fits_iff hplaces).1 hfits
      · rw [hq] at hoverflow
        cases hoverflow
    · rcases ofLiteral_of_not hliteral with hbad | hbad <;>
        · rw [hq] at hbad
          cases hbad
  · rintro ⟨whole, decimals, h, hplaces, hnum, hvalue⟩
    have hexact := isExactly_ofLiteral hsize h hplaces
    have hfits : Fits (literalValue whole decimals) := by
      rw [literalValue_eq] at hnum ⊢
      exact (fits_iff hplaces).2 hnum
    rw [IsExactly, if_pos hfits] at hexact
    obtain ⟨r, hr, hr'⟩ := hexact
    rw [hr, toRat_injective (hr'.trans hvalue.symm)]

/-- **Reading in words.** The digits of a literal are read as one word of 128 bits. A number beyond
that is still too large for a word of 64 bits when twelve of its digits are decimals. -/
theorem ofDigits_of_isLiteral (hsize : text.utf8ByteSize < UInt32.size)
    (h : IsLiteral text.toList whole decimals) (hplaces : decimals.length ≤ mostDecimals) :
    Words.ofDigits (digitsValue (whole ++ decimals)) decimals.length =
      some ((ofLiteral text).map parts) := by
  rw [ofLiteral_of_isLiteral hsize h, if_neg (Nat.not_lt.2 hplaces)]
  exact Words.ofDigits_eq hplaces

/-- **Decimal literals are read exactly.** A text is read as a fraction if and only if it is a
literal with at most twelve decimals and the numerator of its value fits a word, and then the
fraction is the value. Any other literal is an overflow: by its decimals, by its digits as a word
of 128 bits, or by its lowest terms. What is no literal has no value. -/
theorem literals_are_read_exactly (hsize : text.utf8ByteSize < UInt32.size) :
    (∀ q, ofLiteral text = .ok q ↔ ∃ whole decimals, IsLiteral text.toList whole decimals ∧
      decimals.length ≤ mostDecimals ∧ (literalValue whole decimals).num ≤ wordLimit ∧
      q.toRat = literalValue whole decimals) ∧
    (∀ whole decimals, IsLiteral text.toList whole decimals →
      (∃ q, ofLiteral text = .ok q) ∨ ofLiteral text = .error .overflow) ∧
    (∀ whole decimals, IsLiteral text.toList whole decimals → decimals.length ≤ mostDecimals →
      Words.ofDigits (digitsValue (whole ++ decimals)) decimals.length =
        some ((ofLiteral text).map parts)) ∧
    ((¬∃ whole decimals, IsLiteral text.toList whole decimals) →
      ofLiteral text = .error (.malformed ("bad number `" ++ text ++ "`")) ∨
        ofLiteral text = .error .overflow) := by
  refine ⟨ofLiteral_eq_ok_iff hsize, fun whole decimals h => ?_,
    fun _ _ h hplaces => ofDigits_of_isLiteral hsize h hplaces, ofLiteral_of_not⟩
  rcases ofLiteral_eq_ok_or_overflow hsize h with ⟨q, hq, _⟩ | hoverflow
  · exact .inl ⟨q, hq⟩
  · exact .inr hoverflow

end

/-- Leading zeros make no difference, however many there are. -/
theorem literals_are_read_exactly_zeros :
    ∃ q, ofLiteral "000000000000000000000000000000000000000000.125" = .ok q ∧ q.toRat = 1 / 8 := by
  have hsize : "000000000000000000000000000000000000000000.125".utf8ByteSize < UInt32.size := by
    decide
  let eighth : Fraction := ⟨1, 8, by decide, by decide, by decide, by decide⟩
  have hdigits : (List.replicate 42 '0' ++ ['1', '2', '5']).all Char.isDigit = true := by decide
  have hnumber : digitsValue (List.replicate 42 '0' ++ ['1', '2', '5']) = 125 := by decide
  have hliteral : IsLiteral "000000000000000000000000000000000000000000.125".toList
      (List.replicate 42 '0') ['1', '2', '5'] :=
    ⟨.inr (by decide), List.all_eq_true.1 hdigits, by decide⟩
  have hvalue : literalValue (List.replicate 42 '0') ['1', '2', '5'] = 1 / 8 := by
    rw [literalValue_eq, hnumber]
    norm_num
  have heighth : eighth.toRat = 1 / 8 := by norm_num [eighth, toRat]
  have hread := (literals_are_read_exactly hsize).1 eighth
  refine ⟨eighth, hread.2 ⟨_, _, hliteral, by decide, ?_, heighth.trans hvalue.symm⟩, heighth⟩
  rw [hvalue, ← heighth, num_toRat]
  decide

end PuzzlePlayback.Calculator.Fraction
