import Mathlib.Data.List.Basic
import Mathlib.Data.List.Induction
import PuzzlePlayback.CompletionCode

/-!
# Minted codes are accepted

A code is cut at its last mark. The name of a puzzle may have marks of its own, or end in half of
one, but the checked part has none, because it is a number in hexadecimal; so a minted code is cut
where it was joined.

A number has one spelling in lower-case hexadecimal without leading zeros (`isHexadecimal_iff`), so
the codes that are accepted can be said without the printer: what stands behind the last mark
spells the absolute value of the hash.

Main result: `codes_are_checked`.
-/

namespace PuzzlePlayback

/-! ## The last mark -/

/-- The mark between the parts of a code. -/
def mark : List Char := ['|', '#']

/-- A text is cut at one of its marks, and the part behind has none. -/
structure CutAtLastMark (text raw suffix : List Char) : Prop where
  joined : text = raw ++ mark ++ suffix
  last : ¬mark <:+: suffix

theorem mark_infix_cons {c : Char} {cs : List Char} (h : ∀ rest, c = '|' → cs ≠ '#' :: rest) :
    mark <:+: c :: cs ↔ mark <:+: cs := by
  rw [List.infix_cons_iff]
  refine or_iff_right fun hprefix => ?_
  obtain ⟨rest, hrest⟩ := hprefix
  obtain ⟨hc, hcs⟩ := List.cons.inj hrest
  exact h rest hc.symm hcs.symm

theorem splitAtLastMark_eq_none_iff (text : List Char) :
    splitAtLastMark text = none ↔ ¬mark <:+: text := by
  fun_induction splitAtLastMark text with
  | case1 => simp [mark]
  | case2 cs raw suffix hsplit ih => exact iff_of_false nofun (not_not_intro ⟨[], cs, rfl⟩)
  | case3 cs hsplit ih => exact iff_of_false nofun (not_not_intro ⟨[], cs, rfl⟩)
  | case4 c cs hne ih =>
    rw [mark_infix_cons hne, Option.map_eq_none_iff]
    exact ih

theorem cut_of_splitAtLastMark {text raw suffix : List Char}
    (h : splitAtLastMark text = some (raw, suffix)) : CutAtLastMark text raw suffix := by
  fun_induction splitAtLastMark text generalizing raw suffix with
  | case1 => cases h
  | case2 cs before after hsplit ih =>
    obtain ⟨hjoined, hlast⟩ := ih hsplit
    cases h
    exact ⟨by rw [hjoined]; rfl, hlast⟩
  | case3 cs hsplit ih =>
    cases h
    exact ⟨rfl, (splitAtLastMark_eq_none_iff _).1 hsplit⟩
  | case4 c cs hne ih =>
    obtain ⟨parts, hparts, hcut⟩ := Option.map_eq_some_iff.1 h
    obtain ⟨hjoined, hlast⟩ := ih hparts
    cases hcut
    exact ⟨by rw [hjoined]; rfl, hlast⟩

theorem splitAtLastMark_joined {suffix : List Char} (h : ¬mark <:+: suffix) (raw : List Char) :
    splitAtLastMark (raw ++ mark ++ suffix) = some (raw, suffix) := by
  have hnone := (splitAtLastMark_eq_none_iff suffix).2 h
  have hmark (cs : List Char) (hcs : splitAtLastMark (cs ++ mark ++ suffix) = some (cs, suffix)) :
      splitAtLastMark ('|' :: '#' :: (cs ++ mark ++ suffix)) = some ('|' :: '#' :: cs, suffix) := by
    rw [splitAtLastMark, hcs]
  fun_induction splitAtLastMark raw with
  | case1 =>
    show splitAtLastMark ('|' :: '#' :: suffix) = _
    rw [splitAtLastMark, hnone]
  | case2 cs before after hsplit ih => exact hmark cs ih
  | case3 cs hsplit ih => exact hmark cs ih
  | case4 c cs hne ih =>
    show splitAtLastMark (c :: (cs ++ mark ++ suffix)) = _
    rw [splitAtLastMark.eq_3, ih]
    · rfl
    · intro rest hc hrest
      -- What follows the bar is not the mark's own bar.
      cases cs with
      | nil => cases hrest
      | cons d ds =>
        obtain ⟨rfl, -⟩ := List.cons.inj hrest
        exact hne ds hc rfl

theorem splitAtLastMark_eq_some_iff {text raw suffix : List Char} :
    splitAtLastMark text = some (raw, suffix) ↔ CutAtLastMark text raw suffix := by
  constructor
  · exact cut_of_splitAtLastMark
  · rintro ⟨rfl, hlast⟩
    exact splitAtLastMark_joined hlast raw

/-! ## Hexadecimal -/

/-- The digits, by their values. -/
def hexDigits : List Char := "0123456789abcdef".toList

/-- The value of some digits, the highest first. -/
def hexValue (digits : List Char) : Nat :=
  digits.foldl (fun value c => value * 16 + hexDigits.idxOf c) 0

/-- Some digits spell a number in lower-case hexadecimal, without leading zeros. -/
structure IsHexadecimal (digits : List Char) (n : Nat) : Prop where
  digit : ∀ c ∈ digits, c ∈ hexDigits
  value : hexValue digits = n
  nonempty : digits ≠ []
  lowest : digits.head? = some '0' → digits = ['0']

theorem hexValue_append_singleton (digits : List Char) (c : Char) :
    hexValue (digits ++ [c]) = hexValue digits * 16 + hexDigits.idxOf c := by
  rw [hexValue, List.foldl_append]
  rfl

theorem idxOf_digitChar {d : Nat} (h : d < 16) : hexDigits.idxOf d.digitChar = d := by
  revert d
  decide

theorem digitChar_mem {d : Nat} (h : d < 16) : d.digitChar ∈ hexDigits := by
  rw [← List.idxOf_lt_length_iff, idxOf_digitChar h]
  exact h

theorem getElem?_hexDigits {d : Nat} (h : d < 16) : hexDigits[d]? = some d.digitChar := by
  revert d
  decide

theorem idxOf_lt {c : Char} (h : c ∈ hexDigits) : hexDigits.idxOf c < 16 :=
  List.idxOf_lt_length_of_mem h

theorem digitChar_idxOf {c : Char} (h : c ∈ hexDigits) : (hexDigits.idxOf c).digitChar = c := by
  have hdigit := getElem?_hexDigits (idxOf_lt h)
  rw [List.getElem?_idxOf h] at hdigit
  exact (Option.some.inj hdigit).symm

theorem hexValue_singleton (c : Char) : hexValue [c] = hexDigits.idxOf c := by
  show 0 * 16 + _ = _
  omega

theorem head?_snoc {digits : List Char} (h : digits ≠ []) (c : Char) :
    (digits ++ [c]).head? = digits.head? := by
  cases digits with
  | nil => exact absurd rfl h
  | cons d ds => rfl

theorem isHexadecimal_toDigits (n : Nat) : IsHexadecimal (Nat.toDigits 16 n) n := by
  induction n using Nat.strongRecOn with
  | ind n ih =>
    rw [Nat.toDigits_eq_if (by decide)]
    split
    · next hn =>
      refine ⟨?_, ?_, by simp, by simp⟩
      · intro c hc
        rw [List.mem_singleton.1 hc]
        exact digitChar_mem hn
      · rw [hexValue_singleton, idxOf_digitChar hn]
    · next hn =>
      have hlast : n % 16 < 16 := Nat.mod_lt n (by decide)
      obtain ⟨hdigit, hvalue, hnonempty, hlowest⟩ := ih (n / 16) (by omega)
      refine ⟨?_, ?_, by simp, fun hzero => ?_⟩
      · intro c hc
        obtain hc | hc := List.mem_append.1 hc
        · exact hdigit c hc
        · rw [List.mem_singleton.1 hc]
          exact digitChar_mem hlast
      · rw [hexValue_append_singleton, hvalue, idxOf_digitChar hlast]
        omega
      · rw [head?_snoc hnonempty] at hzero
        rw [hlowest hzero] at hvalue
        have hquotient : 0 = n / 16 := hvalue
        omega

/-- Digits that spell a number are those that are printed for it. -/
theorem IsHexadecimal.eq_toDigits {digits : List Char} {n : Nat} (h : IsHexadecimal digits n) :
    digits = Nat.toDigits 16 n := by
  induction digits using List.reverseRecOn generalizing n with
  | nil => exact absurd rfl h.nonempty
  | append_singleton front c ih =>
    have hc : c ∈ hexDigits := h.digit c (by simp)
    have hvalue := h.value
    rw [hexValue_append_singleton] at hvalue
    by_cases hfront : front = []
    · subst hfront
      have hn : n = hexDigits.idxOf c := by
        rw [← hvalue, show hexValue [] = 0 from rfl]
        omega
      rw [hn, Nat.toDigits_of_lt_base (idxOf_lt hc), digitChar_idxOf hc]
      rfl
    · -- The front has no leading zero, so it spells a positive number.
      have hhead : front.head? ≠ some '0' := by
        intro hzero
        have hall := h.lowest (by rw [head?_snoc hfront, hzero])
        have hlength := congrArg List.length hall
        have hpos := List.length_pos_iff.2 hfront
        simp only [List.length_append, List.length_cons, List.length_nil] at hlength
        omega
      have hspelled : front = Nat.toDigits 16 (hexValue front) :=
        ih ⟨fun d hd => h.digit d (List.mem_append_left _ hd), rfl, hfront,
          fun hzero => absurd hzero hhead⟩
      have hpos : 0 < hexValue front := by
        refine Nat.pos_of_ne_zero fun hzero => hhead ?_
        rw [hspelled, hzero]
        rfl
      have hlast : [c] = Nat.toDigits 16 (hexDigits.idxOf c) := by
        rw [Nat.toDigits_of_lt_base (idxOf_lt hc), digitChar_idxOf hc]
      rw [hlast, ← hvalue, Nat.mul_comm,
        ← Nat.toDigits_append_toDigits (by decide) hpos (idxOf_lt hc), ← hspelled]

theorem isHexadecimal_iff {digits : List Char} {n : Nat} :
    IsHexadecimal digits n ↔ digits = Nat.toDigits 16 n :=
  ⟨IsHexadecimal.eq_toDigits, fun h => h ▸ isHexadecimal_toDigits n⟩

/-- A number in hexadecimal has no mark. -/
theorem IsHexadecimal.not_mark {digits : List Char} {n : Nat} (h : IsHexadecimal digits n) :
    ¬mark <:+: digits := by
  intro hmark
  have hbar : '|' ∈ hexDigits := h.digit '|' (hmark.subset (by decide))
  revert hbar
  decide

/-! ## The hash -/

/-- The hash of some bytes in numbers that do not wrap around. -/
def unboundedHash (bytes : List UInt8) : Int :=
  bytes.foldl (fun h byte => h * 31 + byte.toNat) 0

/-- The hash is the unbounded one, wrapped around to a word. -/
theorem rollingHash_eq (bytes : List UInt8) :
    rollingHash bytes = Int32.ofInt (unboundedHash bytes) := by
  unfold rollingHash unboundedHash
  induction bytes using List.reverseRecOn with
  | nil => rfl
  | append_singleton bytes byte ih =>
    rw [List.foldl_append, List.foldl_append, List.foldl_cons, List.foldl_cons, List.foldl_nil,
      List.foldl_nil, ih, Int32.ofInt_add, Int32.ofInt_mul]
    rfl

/-! ## Codes -/

theorem checksum_eq_iff (raw suffix : String) (hour : Nat) :
    checksum raw hour = suffix ↔
      IsHexadecimal suffix.toList (rollingHash (bytesOf (raw ++ toString hour))).toInt.natAbs := by
  rw [isHexadecimal_iff, checksum, hexadecimal, ← String.toList_inj, String.toList_ofList, eq_comm]

theorem isCompletionCode_iff (token : String) (hour : Nat) :
    isCompletionCode token hour = true ↔ ∃ raw suffix : String,
      CutAtLastMark token.toList raw.toList suffix.toList ∧ checksum raw hour = suffix := by
  unfold isCompletionCode
  constructor
  · intro h
    split at h
    · next raw suffix hsplit =>
      refine ⟨.ofList raw, .ofList suffix, ?_, eq_of_beq h⟩
      rw [String.toList_ofList, String.toList_ofList]
      exact splitAtLastMark_eq_some_iff.1 hsplit
    · cases h
  · rintro ⟨raw, suffix, hcut, hchecksum⟩
    rw [splitAtLastMark_eq_some_iff.2 hcut]
    simp only [String.ofList_toList, hchecksum, beq_self_eq_true]

/-- **Codes are checked.** Every minted code is accepted at its hour, whatever the name of the
puzzle. The codes that are accepted are those whose part behind the last mark is the absolute value
of the hash of the part before it, followed by the hour, in lower-case hexadecimal without leading
zeros. The hash is a 32-bit word: it wraps around. -/
theorem codes_are_checked :
    (∀ puzzleId stars blocks hour,
      isCompletionCode (completionCode puzzleId stars blocks hour) hour = true) ∧
    (∀ token hour, isCompletionCode token hour = true ↔ ∃ raw suffix : String,
      token = raw ++ "|#" ++ suffix ∧ ¬mark <:+: suffix.toList ∧
        IsHexadecimal suffix.toList
          (rollingHash (bytesOf (raw ++ toString hour))).toInt.natAbs) ∧
    ∀ bytes, (rollingHash bytes).toInt = (unboundedHash bytes).bmod Int32.size := by
  have hjoin (token raw suffix : String) :
      token.toList = raw.toList ++ mark ++ suffix.toList ↔ token = raw ++ "|#" ++ suffix := by
    rw [← String.toList_inj, String.toList_append, String.toList_append]
    rfl
  refine ⟨fun puzzleId stars blocks hour => ?_, fun token hour => ?_, fun bytes => ?_⟩
  · let raw := readablePart puzzleId stars blocks
    refine (isCompletionCode_iff _ hour).2 ⟨raw, checksum raw hour, ⟨?_, ?_⟩, rfl⟩
    · exact (hjoin _ _ _).2 rfl
    · exact ((checksum_eq_iff raw _ hour).1 rfl).not_mark
  · rw [isCompletionCode_iff]
    constructor
    · rintro ⟨raw, suffix, ⟨hjoined, hlast⟩, hchecksum⟩
      exact ⟨raw, suffix, (hjoin _ _ _).1 hjoined, hlast, (checksum_eq_iff _ _ _).1 hchecksum⟩
    · rintro ⟨raw, suffix, hjoined, hlast, hhex⟩
      exact ⟨raw, suffix, ⟨(hjoin _ _ _).2 hjoined, hlast⟩, (checksum_eq_iff _ _ _).2 hhex⟩
  · rw [rollingHash_eq, Int32.toInt_ofInt]

/-- The code of a puzzle whose name ends in a mark and has a letter of two bytes. The hash, which is
negative, is not that of a code with fewer stars or of another hour. -/
theorem codes_are_checked_umlaut :
    completionCode "schön|#" 3 5 14 = "LVL:schön|#|ST:3|BL:5|#11dc1bf0" ∧
    isCompletionCode "LVL:schön|#|ST:3|BL:5|#11dc1bf0" 14 = true ∧
    isCompletionCode "LVL:schön|#|ST:2|BL:5|#11dc1bf0" 14 = false ∧
    isCompletionCode "LVL:schön|#|ST:3|BL:5|#11dc1bf0" 15 = false := by
  have hcode : completionCode "schön|#" 3 5 14 = "LVL:schön|#|ST:3|BL:5|#11dc1bf0" := by
    decide +kernel
  have haccepted := codes_are_checked.1 "schön|#" 3 5 14
  rw [hcode] at haccepted
  exact ⟨hcode, haccepted, by decide +kernel, by decide +kernel⟩

end PuzzlePlayback
