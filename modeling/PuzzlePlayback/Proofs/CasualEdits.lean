import Mathlib.Algebra.Order.Group.Int
import Mathlib.RingTheory.Coprime.Lemmas
import Mathlib.Tactic.Ring
import PuzzlePlayback.Proofs.MintedCodes

/-!
# Casual edits are detected

The hash of a text is a number in base 31, its bytes the digits, cut to a word. So the hash of a
joined text is put together from the hashes of its parts, and an edit in one place moves the hash
by a small number times a power of 31. A power of 31 is odd: it has no common divisor with the size
of a word, and a number that is not zero and smaller than a word stays different from zero when it
is multiplied with it.

A code holds the absolute value of the hash only. Two different hashes with the same absolute value
are negatives of each other, and this is the one way in which an edited code is still accepted.

Main result: `casual_edits_are_detected`.
-/

namespace PuzzlePlayback

/-- An edit in one place: a byte is changed, or two neighbours that differ change places. -/
inductive CasualEdit : List UInt8 → List UInt8 → Prop
  | change (front back : List UInt8) {x y : UInt8} : x ≠ y →
      CasualEdit (front ++ x :: back) (front ++ y :: back)
  | exchange (front back : List UInt8) {x y : UInt8} : x ≠ y →
      CasualEdit (front ++ x :: y :: back) (front ++ y :: x :: back)

/-- What follows an edited text does not matter. -/
theorem CasualEdit.append {a b : List UInt8} (h : CasualEdit a b) (rest : List UInt8) :
    CasualEdit (a ++ rest) (b ++ rest) := by
  cases h with
  | change front back hne =>
    rw [List.append_assoc, List.append_assoc]
    exact .change front (back ++ rest) hne
  | exchange front back hne =>
    rw [List.append_assoc, List.append_assoc]
    exact .exchange front (back ++ rest) hne

theorem bytesOf_append (s t : String) : bytesOf (s ++ t) = bytesOf s ++ bytesOf t := by
  rw [bytesOf, String.toUTF8_eq_toByteArray, String.toByteArray_append,
    ByteArray.toList_data_append]
  rfl

/-! ## The hash in numbers that do not wrap around -/

theorem unboundedHash_snoc (bytes : List UInt8) (byte : UInt8) :
    unboundedHash (bytes ++ [byte]) = unboundedHash bytes * 31 + byte.toNat := by
  rw [unboundedHash, List.foldl_append]
  rfl

theorem unboundedHash_append (a b : List UInt8) :
    unboundedHash (a ++ b) = unboundedHash a * 31 ^ b.length + unboundedHash b := by
  induction b using List.reverseRecOn with
  | nil =>
    rw [List.append_nil, List.length_nil, pow_zero, mul_one]
    exact (add_zero _).symm
  | append_singleton b byte ih =>
    rw [← List.append_assoc, unboundedHash_snoc, unboundedHash_snoc, ih, List.length_append,
      List.length_singleton, pow_succ]
    ring

theorem unboundedHash_cons (byte : UInt8) (bytes : List UInt8) :
    unboundedHash (byte :: bytes) = byte.toNat * 31 ^ bytes.length + unboundedHash bytes := by
  rw [← List.singleton_append, unboundedHash_append]
  show (0 * 31 + (byte.toNat : Int)) * _ + _ = _
  ring

/-- How far an edit moves the hash: by a number that is not zero and smaller than a word, times a
power of 31. -/
theorem CasualEdit.unboundedHash_sub {a b : List UInt8} (h : CasualEdit a b) :
    ∃ (d : Int) (k : Nat), d ≠ 0 ∧ d.natAbs < 2 ^ 32 ∧
      unboundedHash a - unboundedHash b = d * 31 ^ k := by
  cases h with
  | @change front back x y hne =>
    have hne : x.toNat ≠ y.toNat := mt UInt8.toNat_inj.1 hne
    have hx := x.toNat_lt
    have hy := y.toNat_lt
    refine ⟨(x.toNat : Int) - y.toNat, back.length, by omega, by omega, ?_⟩
    simp only [unboundedHash_append, unboundedHash_cons, List.length_cons]
    ring
  | @exchange front back x y hne =>
    have hne : x.toNat ≠ y.toNat := mt UInt8.toNat_inj.1 hne
    have hx := x.toNat_lt
    have hy := y.toNat_lt
    refine ⟨30 * ((x.toNat : Int) - y.toNat), back.length, by omega, by omega, ?_⟩
    simp only [unboundedHash_append, unboundedHash_cons, List.length_cons]
    ring

/-! ## The hash in words -/

theorem ofInt_pow (n : Nat) : Int32.ofInt (31 ^ n) = 31 ^ n := by
  induction n with
  | zero => rfl
  | succ n ih =>
    rw [pow_succ, Int32.ofInt_mul, ih, Int32.pow_succ]
    rfl

/-- **The hash of a joined text.** -/
theorem rollingHash_append (a b : List UInt8) :
    rollingHash (a ++ b) = rollingHash a * 31 ^ b.length + rollingHash b := by
  rw [rollingHash_eq, rollingHash_eq, rollingHash_eq, unboundedHash_append, Int32.ofInt_add,
    Int32.ofInt_mul, ofInt_pow]

/-- Two hashes are equal where the size of a word divides their difference. -/
theorem dvd_sub_of_rollingHash_eq {a b : List UInt8} (h : rollingHash a = rollingHash b) :
    (2 ^ 32 : Int) ∣ unboundedHash a - unboundedHash b := by
  rw [rollingHash_eq, rollingHash_eq] at h
  have hbmod := congrArg Int32.toInt h
  rw [Int32.toInt_ofInt, Int32.toInt_ofInt] at hbmod
  exact Int.dvd_of_bmod_eq_zero (Int.bmod_eq_bmod_iff_bmod_sub_eq_zero.1 hbmod)

/-- **An edit changes the hash.** -/
theorem CasualEdit.rollingHash_ne {a b : List UInt8} (h : CasualEdit a b) :
    rollingHash a ≠ rollingHash b := by
  intro hequal
  obtain ⟨d, k, hne, hsmall, hsub⟩ := h.unboundedHash_sub
  have hdvd := dvd_sub_of_rollingHash_eq hequal
  rw [hsub] at hdvd
  have hcoprime : IsCoprime (2 ^ 32 : Int) (31 ^ k) :=
    IsCoprime.pow (Int.isCoprime_iff_gcd_eq_one.2 (by decide))
  have hword := hcoprime.dvd_of_dvd_mul_right hdvd
  have hle := Int.natAbs_le_of_dvd_ne_zero hword hne
  have hsize : (2 ^ 32 : Int).natAbs = 2 ^ 32 := rfl
  omega

/-- Of two different words with the same absolute value one is the negative of the other. The
least word has no opposite: it is its own negative. -/
theorem natAbs_eq_iff_eq_neg {g h : Int32} (hne : g ≠ h) :
    h.toInt.natAbs = g.toInt.natAbs ↔ h = -g := by
  have hdifferent : g.toInt ≠ h.toInt := mt Int32.toInt_inj.1 hne
  have hg := And.intro g.le_toInt g.toInt_lt
  have hh := And.intro h.le_toInt h.toInt_lt
  rw [← Int32.toInt_inj, Int32.toInt_neg, Int.bmod_def]
  omega

/-! ## Codes -/

theorem isCompletionCode_joined {raw suffix : String} (hsuffix : ¬mark <:+: suffix.toList)
    (hour : Nat) :
    isCompletionCode (raw ++ "|#" ++ suffix) hour = true ↔
      IsHexadecimal suffix.toList (rollingHash (bytesOf (raw ++ toString hour))).toInt.natAbs := by
  have hcut : CutAtLastMark (raw ++ "|#" ++ suffix).toList raw.toList suffix.toList := by
    refine ⟨?_, hsuffix⟩
    rw [String.toList_append, String.toList_append]
    rfl
  rw [isCompletionCode, splitAtLastMark_eq_some_iff.2 hcut]
  simp only [String.ofList_toList, beq_iff_eq]
  exact checksum_eq_iff raw suffix hour

theorem IsHexadecimal.unique {digits : List Char} {m n : Nat} (hm : IsHexadecimal digits m)
    (hn : IsHexadecimal digits n) : m = n :=
  hm.value.symm.trans hn.value

/-- **Casual edits are detected.** The hash of a joined text is put together from the hashes of its
parts. An edit in one place changes the hash. So when the readable part of an accepted code is
edited in one place and its checked part is kept, it is accepted only if the new hash is the
negative of the old one. -/
theorem casual_edits_are_detected :
    (∀ a b, rollingHash (a ++ b) = rollingHash a * 31 ^ b.length + rollingHash b) ∧
    (∀ a b, CasualEdit a b → rollingHash a ≠ rollingHash b) ∧
    ∀ (raw edited suffix : String) (hour : Nat), ¬mark <:+: suffix.toList →
      isCompletionCode (raw ++ "|#" ++ suffix) hour = true →
      CasualEdit (bytesOf raw) (bytesOf edited) →
      (isCompletionCode (edited ++ "|#" ++ suffix) hour = true ↔
        rollingHash (bytesOf (edited ++ toString hour)) =
          -rollingHash (bytesOf (raw ++ toString hour))) := by
  refine ⟨rollingHash_append, fun a b h => h.rollingHash_ne, ?_⟩
  intro raw edited suffix hour hsuffix haccepted hedit
  have hne : rollingHash (bytesOf (raw ++ toString hour)) ≠
      rollingHash (bytesOf (edited ++ toString hour)) := by
    rw [bytesOf_append, bytesOf_append]
    exact (hedit.append _).rollingHash_ne
  rw [isCompletionCode_joined hsuffix] at haccepted ⊢
  rw [← natAbs_eq_iff_eq_neg hne]
  constructor
  · intro hedited
    exact hedited.unique haccepted
  · intro habs
    rw [habs]
    exact haccepted

/-- One star less, and the code is refused. -/
theorem casual_edits_are_detected_stars :
    isCompletionCode ("LVL:lvl|ST:3|BL:4" ++ "|#" ++ "4f3a9ad4") 22 = true ∧
    isCompletionCode ("LVL:lvl|ST:2|BL:4" ++ "|#" ++ "4f3a9ad4") 22 = false := by
  have hsuffix : ¬mark <:+: "4f3a9ad4".toList := by decide
  have haccepted : isCompletionCode ("LVL:lvl|ST:3|BL:4" ++ "|#" ++ "4f3a9ad4") 22 = true := by
    decide +kernel
  have hedit : CasualEdit (bytesOf "LVL:lvl|ST:3|BL:4") (bytesOf "LVL:lvl|ST:2|BL:4") :=
    .change (bytesOf "LVL:lvl|ST:") (bytesOf "|BL:4") (show (51 : UInt8) ≠ 50 by decide)
  obtain ⟨_, _, hdetected⟩ := casual_edits_are_detected
  refine ⟨haccepted, Bool.eq_false_iff.2 fun hedited => ?_⟩
  have hnegative := (hdetected _ _ _ _ hsuffix haccepted hedit).1 hedited
  revert hnegative
  decide +kernel

end PuzzlePlayback
