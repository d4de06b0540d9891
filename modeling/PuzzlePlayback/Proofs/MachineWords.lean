import PuzzlePlayback.Proofs.Terms

/-!
# Fractions in machine words

The calculator computes in unbounded integers and asks of a result whether it fits. A machine
computes in words: the parts of a fraction are signed words of 64 bits, and what comes up on the
way to a result are signed words of 128 bits. Here is that computation (`Words.add` and its
siblings). It has no value where a number on the way does not fit its word, and it reduces a
quotient with Euclid's loop.

The two agree on everything that can be built (`Words.agrees`): the computation in words always has
a value, and it is the calculator's. What carries this are two bounds. A numerator or a denominator
is at most `wordLimit`, so a product of two of them is at most its square, and so is half of a sum
of two such products; and the loop goes on with remainders, which only get smaller.
-/

namespace PuzzlePlayback.Calculator

namespace Words

/-! ## Words -/

/-- The numbers in a signed word of 64 bits. -/
def InWord (n : Int) : Prop := -9223372036854775808 ≤ n ∧ n ≤ 9223372036854775807

/-- The greatest number in a signed word of 128 bits. -/
def doubleLimit : Nat := 170141183460469231731687303715884105727

/-- The numbers in a signed word of 128 bits. -/
def InDouble (n : Int) : Prop := -(doubleLimit : Int) - 1 ≤ n ∧ n ≤ doubleLimit

instance (n : Int) : Decidable (InWord n) := inferInstanceAs (Decidable (_ ∧ _))

instance (n : Int) : Decidable (InDouble n) := inferInstanceAs (Decidable (_ ∧ _))

/-- A number as a word of 64 bits, if it fits. -/
def word? (n : Int) : Option Int := if InWord n then some n else none

/-- A number as a word of 128 bits, if it fits. -/
def double? (n : Int) : Option Int := if InDouble n then some n else none

theorem double?_eq_some {n : Int} (h : n.natAbs ≤ doubleLimit) : double? n = some n :=
  if_pos ⟨by omega, by omega⟩

/-- Every word but the least has an opposite. -/
theorem inWord_and_ne_iff {n : Int} :
    InWord n ∧ n ≠ -9223372036854775808 ↔ n.natAbs ≤ wordLimit := by
  rw [InWord, wordLimit]
  omega

theorem inWord_natCast_iff {n : Nat} : InWord n ↔ n ≤ wordLimit := by
  rw [InWord, wordLimit]
  omega

/-! ## Reducing a quotient -/

/-- Euclid's loop. -/
def euclid (a b : Int) : Option Int :=
  if b = 0 then some a
  else if InDouble (a.tmod b) then euclid b (a.tmod b)
  else none
termination_by b.natAbs
decreasing_by
  rw [Int.natAbs_tmod]
  exact Nat.mod_lt _ (by omega)

/-- The greatest common divisor of two numbers, by the loop on their magnitudes. -/
def gcd (a b : Int) : Option Int := do
  euclid (← double? a.natAbs) (← double? b.natAbs)

/-- A numerator and a denominator. -/
structure Parts where
  num : Int
  den : Int
deriving DecidableEq

/-- The quotient of two numbers in lowest terms. The least word is no numerator. -/
def reduce (num den : Int) : Option (Except Failure Parts) :=
  if den = 0 then some (.error .divisionByZero)
  else do
    let divisor := max (← gcd num den) 1
    let sign := if den < 0 then -1 else 1
    let num ← double? ((← double? (sign * num)).tdiv divisor)
    if InWord num ∧ num ≠ -9223372036854775808 then
      let den ← double? ((← double? (sign * den)).tdiv divisor)
      if InWord den then return .ok ⟨num, den⟩ else return .error .overflow
    else return .error .overflow

/-! ## Operations -/

/-- A whole number; the least word becomes the one above it. -/
def ofInt (n : Int) : Parts := ⟨max n (-9223372036854775807), 1⟩

/-- The number that is written with some digits, of which `places` stand after the point. Digits
that are no word of 128 bits are an overflow. -/
def ofDigits (value places : Nat) : Option (Except Failure Parts) :=
  if value ≤ doubleLimit then do reduce value (← double? (Nat.pow 10 places))
  else some (.error .overflow)

def abs (a : Parts) : Option Parts := do
  return ⟨← word? a.num.natAbs, a.den⟩

def neg (a : Parts) : Option (Except Failure Parts) := do
  reduce (← double? (-a.num)) a.den

def add (a b : Parts) : Option (Except Failure Parts) := do
  let left ← double? (a.num * b.den)
  let right ← double? (b.num * a.den)
  reduce (← double? (left + right)) (← double? (a.den * b.den))

def sub (a b : Parts) : Option (Except Failure Parts) := do
  match ← neg b with
  | .ok opposite => add a opposite
  | .error e => return .error e

def mul (a b : Parts) : Option (Except Failure Parts) := do
  reduce (← double? (a.num * b.num)) (← double? (a.den * b.den))

def div (a b : Parts) : Option (Except Failure Parts) := do
  reduce (← double? (a.num * b.den)) (← double? (a.den * b.num))

/-- The order, by cross multiplication. -/
def order (a b : Parts) : Option Ordering := do
  return compare (← double? (a.num * b.den)) (← double? (b.num * a.den))

/-- The parts that can be built from words and digits by any operations. -/
inductive Built : Parts → Prop
  | quotient {num den : Int} {r : Parts} : InWord num → InWord den →
      reduce num den = some (.ok r) → Built r
  | ofInt {n : Int} : InWord n → Built (ofInt n)
  | ofDigits {value places : Nat} {r : Parts} : places ≤ Fraction.mostDecimals →
      ofDigits value places = some (.ok r) → Built r
  | abs {a r : Parts} : Built a → abs a = some r → Built r
  | neg {a r : Parts} : Built a → neg a = some (.ok r) → Built r
  | add {a b r : Parts} : Built a → Built b → add a b = some (.ok r) → Built r
  | sub {a b r : Parts} : Built a → Built b → sub a b = some (.ok r) → Built r
  | mul {a b r : Parts} : Built a → Built b → mul a b = some (.ok r) → Built r
  | div {a b r : Parts} : Built a → Built b → div a b = some (.ok r) → Built r

/-! ## Euclid's loop -/

/-- The loop finds the greatest common divisor of magnitudes. -/
theorem euclid_eq_gcd {a b : Int} (ha : 0 ≤ a) (hb : 0 ≤ b) (hfit : b ≤ doubleLimit) :
    euclid a b = some (Int.ofNat (a.natAbs.gcd b.natAbs)) := by
  induction a, b using euclid.induct with
  | case1 a =>
    rw [euclid, if_pos rfl, Int.natAbs_zero, Nat.gcd_zero_right]
    exact congrArg some (Int.natAbs_of_nonneg ha).symm
  | case2 a b hne hremainder ih =>
    have hrest : 0 ≤ a.tmod b := Int.tmod_nonneg b ha
    have hgcd : b.natAbs.gcd (a.natAbs % b.natAbs) = a.natAbs.gcd b.natAbs := by
      rw [Nat.gcd_comm, ← Nat.gcd_rec, Nat.gcd_comm]
    rw [euclid, if_neg hne, if_pos hremainder, ih hb hrest hremainder.2, Int.natAbs_tmod, hgcd]
  | case3 a b hne hremainder =>
    have hrest : 0 ≤ a.tmod b := Int.tmod_nonneg b ha
    have hsmaller : a.tmod b < b := Int.tmod_lt_of_pos a (by omega)
    exact absurd ⟨by omega, by omega⟩ hremainder

theorem gcd_eq_some {a b : Int} (ha : a.natAbs ≤ doubleLimit) (hb : b.natAbs ≤ doubleLimit) :
    gcd a b = some (Int.ofNat (a.natAbs.gcd b.natAbs)) := by
  rw [gcd, double?_eq_some (n := a.natAbs) ha, double?_eq_some (n := b.natAbs) hb]
  exact euclid_eq_gcd (Int.natCast_nonneg _) (Int.natCast_nonneg _) (Int.ofNat_le.2 hb)

/-! ## The reduced quotient -/

/-- Dividing by the greatest common divisor gives the lowest numerator. -/
theorem tdiv_gcd_num (num : Int) {den : Int} (h : den ≠ 0) :
    (den.sign * num).tdiv (Int.ofNat (num.natAbs.gcd den.natAbs)) =
      Fraction.lowestNum num den := by
  have hpos := Fraction.gcd_natAbs_pos num h
  obtain ⟨k, hk⟩ := Nat.gcd_dvd_left num.natAbs den.natAbs
  have hquotient : num.natAbs / num.natAbs.gcd den.natAbs = k :=
    Nat.div_eq_of_eq_mul_right hpos hk
  have hnum : den.sign * num = den.sign * num.sign * k * (num.natAbs.gcd den.natAbs : Nat) := by
    calc den.sign * num = den.sign * (num.sign * num.natAbs) := by rw [Int.sign_mul_natAbs]
      _ = den.sign * (num.sign * (num.natAbs.gcd den.natAbs * k : Nat)) := by rw [← hk]
      _ = den.sign * num.sign * k * (num.natAbs.gcd den.natAbs : Nat) := by
        rw [Int.natCast_mul, Int.mul_comm (num.natAbs.gcd den.natAbs : Nat), Int.mul_assoc,
          Int.mul_assoc]
  rw [Fraction.lowestNum, hquotient, hnum]
  exact Int.mul_tdiv_cancel _ (Int.natCast_ne_zero.2 (Nat.ne_of_gt hpos))

/-- Dividing by the greatest common divisor gives the lowest denominator. -/
theorem tdiv_gcd_den (num den : Int) :
    (den.sign * den).tdiv (Int.ofNat (num.natAbs.gcd den.natAbs)) =
      Fraction.lowestDen num den := by
  rw [Int.mul_comm, Int.mul_sign_self]
  rfl

end Words

/-- The two words in which a fraction is stored. -/
def Fraction.parts (q : Fraction) : Words.Parts := ⟨q.num, q.den⟩

namespace Words

/-- A number in lowest terms is stored if its parts fit. -/
theorem ofQuotient_map_parts {num den : Int} (h : den ≠ 0) :
    (Fraction.ofQuotient num den).map Fraction.parts =
      if (Fraction.lowestNum num den).natAbs ≤ wordLimit ∧ Fraction.lowestDen num den ≤ wordLimit
      then .ok ⟨Fraction.lowestNum num den, Fraction.lowestDen num den⟩
      else .error .overflow := by
  rw [Fraction.ofQuotient, dif_neg h]
  split <;> rfl

/-- **Reducing in words.** Where both numbers and their opposites are words, nothing on the way to
the reduced quotient overflows, and it is the calculator's. -/
theorem reduce_eq {num den : Int} (hnum : num.natAbs ≤ doubleLimit)
    (hden : den.natAbs ≤ doubleLimit) :
    reduce num den = some ((Fraction.ofQuotient num den).map Fraction.parts) := by
  unfold reduce
  by_cases hzero : den = 0
  · rw [if_pos hzero, Fraction.ofQuotient, dif_pos hzero]
    rfl
  have hpos := Fraction.gcd_natAbs_pos num hzero
  have hdivisor : max (Int.ofNat (num.natAbs.gcd den.natAbs)) 1 =
      Int.ofNat (num.natAbs.gcd den.natAbs) := by
    show max ((num.natAbs.gcd den.natAbs : Nat) : Int) 1 = (num.natAbs.gcd den.natAbs : Nat)
    omega
  have hsign : (if den < 0 then -1 else 1) = den.sign := by
    split
    · next hneg => exact (Int.sign_eq_neg_one_of_neg hneg).symm
    · exact (Int.sign_eq_one_of_pos (by omega)).symm
  have habs : den.sign.natAbs = 1 := Int.natAbs_sign_of_ne_zero hzero
  have hlowestNum : (Fraction.lowestNum num den).natAbs ≤ doubleLimit := by
    rw [Fraction.natAbs_lowestNum hzero]
    exact Nat.le_trans (Nat.div_le_self _ _) hnum
  have hlowestDen : (Fraction.lowestDen num den : Int).natAbs ≤ doubleLimit :=
    Nat.le_trans (Nat.div_le_self _ _) hden
  rw [if_neg hzero, gcd_eq_some hnum hden, ofQuotient_map_parts hzero]
  simp only [Option.bind_eq_bind, Option.bind_some, hdivisor, hsign,
    double?_eq_some (n := den.sign * num) (by rwa [Int.natAbs_mul, habs, Nat.one_mul]),
    double?_eq_some (n := den.sign * den) (by rwa [Int.natAbs_mul, habs, Nat.one_mul]),
    tdiv_gcd_num num hzero, tdiv_gcd_den num den, double?_eq_some hlowestNum,
    double?_eq_some hlowestDen, inWord_and_ne_iff, inWord_natCast_iff]
  by_cases hfitsNum : (Fraction.lowestNum num den).natAbs ≤ wordLimit
  · by_cases hfitsDen : Fraction.lowestDen num den ≤ wordLimit
    · rw [if_pos hfitsNum, if_pos hfitsDen, if_pos ⟨hfitsNum, hfitsDen⟩]
      rfl
    · rw [if_pos hfitsNum, if_neg hfitsDen, if_neg fun h => hfitsDen h.2]
      rfl
  · rw [if_neg hfitsNum, if_neg fun h => hfitsNum h.1]
    rfl

theorem reduce_words {num den : Int} (hnum : InWord num) (hden : InWord den) :
    reduce num den = some ((Fraction.ofQuotient num den).map Fraction.parts) := by
  have hlimit : doubleLimit = 170141183460469231731687303715884105727 := rfl
  obtain ⟨hnumLow, hnumHigh⟩ := hnum
  obtain ⟨hdenLow, hdenHigh⟩ := hden
  exact reduce_eq (by omega) (by omega)

/-! ## Operations on fractions -/

/-- A sum of two products of words is a word of 128 bits. -/
theorem limit_mul_limit : 2 * (wordLimit * wordLimit) ≤ doubleLimit := by decide

theorem natAbs_mul_le {m n : Int} (hm : m.natAbs ≤ wordLimit) (hn : n.natAbs ≤ wordLimit) :
    (m * n).natAbs ≤ wordLimit * wordLimit := by
  rw [Int.natAbs_mul]
  exact Nat.mul_le_mul hm hn

theorem mul_fits {m n : Int} (hm : m.natAbs ≤ wordLimit) (hn : n.natAbs ≤ wordLimit) :
    (m * n).natAbs ≤ doubleLimit := by
  have hproduct := natAbs_mul_le hm hn
  have hlimit := limit_mul_limit
  omega

theorem crossSum_fits (a b : Fraction) : (Fraction.crossSum a b).natAbs ≤ doubleLimit := by
  have hleft := natAbs_mul_le (n := b.den) a.num_le b.den_le
  have hright := natAbs_mul_le (n := a.den) b.num_le a.den_le
  have hlimit := limit_mul_limit
  rw [Fraction.crossSum]
  omega

/-- The computation in words has a value, and it is the calculator's. -/
structure Agrees (a b : Fraction) : Prop where
  abs : Words.abs a.parts = some a.abs.parts
  neg : Words.neg a.parts = some (.ok a.neg.parts)
  add : Words.add a.parts b.parts = some ((a.add b).map Fraction.parts)
  sub : Words.sub a.parts b.parts = some ((a.sub b).map Fraction.parts)
  mul : Words.mul a.parts b.parts = some ((a.mul b).map Fraction.parts)
  div : Words.div a.parts b.parts = some ((a.div b).map Fraction.parts)
  order : Words.order a.parts b.parts = some (compare a b)

theorem neg_parts (a : Fraction) : neg a.parts = some (.ok a.neg.parts) := by
  have hneg : (-a.num).natAbs ≤ doubleLimit := by
    rw [Int.natAbs_neg]
    exact Nat.le_trans a.num_le (by decide)
  have hself : Fraction.ofQuotient (-a.num) a.den = .ok a.neg := Fraction.ofQuotient_self a.neg
  have hden : (a.den : Int).natAbs ≤ doubleLimit := Nat.le_trans a.den_le (by decide)
  simp only [neg, Fraction.parts, double?_eq_some hneg, Option.bind_eq_bind, Option.bind_some,
    reduce_eq hneg hden, hself]
  rfl

theorem add_parts (a b : Fraction) :
    add a.parts b.parts = some ((a.add b).map Fraction.parts) := by
  have hleft : (a.num * b.den).natAbs ≤ doubleLimit := mul_fits a.num_le b.den_le
  have hright : (b.num * a.den).natAbs ≤ doubleLimit := mul_fits b.num_le a.den_le
  have hden : (a.den * b.den : Int).natAbs ≤ doubleLimit := mul_fits a.den_le b.den_le
  have hsum : (a.num * b.den + b.num * a.den).natAbs ≤ doubleLimit := crossSum_fits a b
  simp only [add, Fraction.parts, double?_eq_some hleft, double?_eq_some hright,
    double?_eq_some hden, double?_eq_some hsum, Option.bind_eq_bind, Option.bind_some]
  exact reduce_eq hsum hden

theorem agrees (a b : Fraction) : Agrees a b where
  abs := by
    have hword : word? a.num.natAbs = some (a.num.natAbs : Int) :=
      if_pos (inWord_natCast_iff.2 a.num_le)
    simp only [abs, Fraction.parts, hword, Option.bind_eq_bind, Option.bind_some]
    rfl
  neg := neg_parts a
  add := add_parts a b
  sub := by
    simp only [sub, neg_parts, Option.bind_eq_bind, Option.bind_some]
    exact add_parts a b.neg
  mul := by
    have hnum : (a.num * b.num).natAbs ≤ doubleLimit := mul_fits a.num_le b.num_le
    have hden : (a.den * b.den : Int).natAbs ≤ doubleLimit := mul_fits a.den_le b.den_le
    simp only [mul, Fraction.parts, double?_eq_some hnum, double?_eq_some hden,
      Option.bind_eq_bind, Option.bind_some]
    exact reduce_eq hnum hden
  div := by
    have hnum : (a.num * b.den).natAbs ≤ doubleLimit := mul_fits a.num_le b.den_le
    have hden : (a.den * b.num).natAbs ≤ doubleLimit := mul_fits a.den_le b.num_le
    simp only [div, Fraction.parts, double?_eq_some hnum, double?_eq_some hden,
      Option.bind_eq_bind, Option.bind_some]
    exact reduce_eq hnum hden
  order := by
    have hleft : (a.num * b.den).natAbs ≤ doubleLimit := mul_fits a.num_le b.den_le
    have hright : (b.num * a.den).natAbs ≤ doubleLimit := mul_fits b.num_le a.den_le
    simp only [order, Fraction.parts, double?_eq_some hleft, double?_eq_some hright,
      Option.bind_eq_bind, Option.bind_some]
    rfl

/-! ## What can be built -/

theorem ofInt_eq {n : Int} (h : InWord n) : ofInt n = (Fraction.ofInt n).parts := by
  have hlimit : (wordLimit : Int) = 9223372036854775807 := rfl
  obtain ⟨_, hhigh⟩ := h
  have hnum : max n (-9223372036854775807) = max (-(wordLimit : Int)) (min n wordLimit) := by omega
  rw [ofInt, hnum]
  rfl

/-- Digits that are no word of 128 bits are too many for a fraction, wherever the point stands. -/
theorem ofQuotient_of_doubleLimit_lt {value places : Nat} (hvalue : doubleLimit < value)
    (hplaces : places ≤ Fraction.mostDecimals) :
    Fraction.ofQuotient value (Nat.pow 10 places) = .error .overflow := by
  have hpow : Nat.pow 10 places ≤ Nat.pow 10 Fraction.mostDecimals :=
    Nat.pow_le_pow_right (by decide) hplaces
  have hpos : 0 < Nat.pow 10 places := Nat.pow_pos (by decide)
  have hne : ((Nat.pow 10 places : Nat) : Int) ≠ 0 := Int.natCast_ne_zero.2 (Nat.ne_of_gt hpos)
  rw [Fraction.ofQuotient, dif_neg hne, dif_neg]
  rintro ⟨hnum, _⟩
  rw [Fraction.natAbs_lowestNum hne, Int.natAbs_natCast, Int.natAbs_natCast] at hnum
  have hgcd : value.gcd (Nat.pow 10 places) ≤ Nat.pow 10 Fraction.mostDecimals :=
    Nat.le_trans (Nat.gcd_le_right _ hpos) hpow
  have hproduct : value ≤ wordLimit * Nat.pow 10 Fraction.mostDecimals := by
    calc value = value / value.gcd (Nat.pow 10 places) * value.gcd (Nat.pow 10 places) :=
          (Nat.div_mul_cancel (Nat.gcd_dvd_left _ _)).symm
      _ ≤ wordLimit * Nat.pow 10 Fraction.mostDecimals := Nat.mul_le_mul hnum hgcd
  have hlimit : wordLimit * Nat.pow 10 Fraction.mostDecimals ≤ doubleLimit := by decide
  omega

theorem ofDigits_eq {value places : Nat} (h : places ≤ Fraction.mostDecimals) :
    ofDigits value places =
      some ((Fraction.ofQuotient value (Nat.pow 10 places)).map Fraction.parts) := by
  have hpow : Nat.pow 10 places ≤ doubleLimit :=
    Nat.le_trans (Nat.pow_le_pow_right (by decide) h) (by decide)
  unfold ofDigits
  split
  · next hvalue =>
    have hword : (value : Int).natAbs ≤ doubleLimit := hvalue
    rw [double?_eq_some (n := (Nat.pow 10 places : Nat)) hpow]
    exact reduce_eq hword hpow
  · next hvalue =>
    rw [ofQuotient_of_doubleLimit_lt (Nat.lt_of_not_le hvalue) h]
    rfl

/-- Whatever an operation finds is a fraction. -/
theorem exists_of_map_parts {found : Except Failure Fraction} {r : Parts}
    (h : some (found.map Fraction.parts) = some (.ok r)) : ∃ q : Fraction, q.parts = r := by
  obtain ⟨q, _, hq⟩ := map_eq_ok (Option.some.inj h)
  exact ⟨q, hq⟩

/-- **What is built are the fractions.** By induction on the operations: each of them is given the
parts of fractions and agrees with the calculator, which finds a fraction. -/
theorem built_iff (p : Parts) : Built p ↔ ∃ q : Fraction, q.parts = p := by
  constructor
  · intro h
    induction h with
    | quotient hnum hden hr => exact exists_of_map_parts ((reduce_words hnum hden).symm.trans hr)
    | ofInt hn => exact ⟨_, (ofInt_eq hn).symm⟩
    | ofDigits hplaces hr => exact exists_of_map_parts ((ofDigits_eq hplaces).symm.trans hr)
    | abs _ hr iha =>
      obtain ⟨a, rfl⟩ := iha
      exact ⟨a.abs, Option.some.inj ((agrees a a).abs.symm.trans hr)⟩
    | neg _ hr iha =>
      obtain ⟨a, rfl⟩ := iha
      exact ⟨a.neg, Except.ok.inj (Option.some.inj ((agrees a a).neg.symm.trans hr))⟩
    | add _ _ hr iha ihb =>
      obtain ⟨⟨a, rfl⟩, b, rfl⟩ := And.intro iha ihb
      exact exists_of_map_parts ((agrees a b).add.symm.trans hr)
    | sub _ _ hr iha ihb =>
      obtain ⟨⟨a, rfl⟩, b, rfl⟩ := And.intro iha ihb
      exact exists_of_map_parts ((agrees a b).sub.symm.trans hr)
    | mul _ _ hr iha ihb =>
      obtain ⟨⟨a, rfl⟩, b, rfl⟩ := And.intro iha ihb
      exact exists_of_map_parts ((agrees a b).mul.symm.trans hr)
    | div _ _ hr iha ihb =>
      obtain ⟨⟨a, rfl⟩, b, rfl⟩ := And.intro iha ihb
      exact exists_of_map_parts ((agrees a b).div.symm.trans hr)
  · rintro ⟨q, rfl⟩
    obtain ⟨hnum, _⟩ := inWord_and_ne_iff.2 q.num_le
    have hden : InWord q.den := inWord_natCast_iff.2 q.den_le
    refine .quotient hnum hden ?_
    rw [reduce_words hnum hden, Fraction.ofQuotient_self]
    rfl

/-- What is built is in lowest terms, and both parts fit their words. -/
theorem Built.lowest {p : Parts} (h : Built p) : 0 < p.den ∧ p.num.natAbs.gcd p.den.natAbs = 1 ∧
    p.num.natAbs ≤ wordLimit ∧ p.den ≤ wordLimit := by
  obtain ⟨q, rfl⟩ := (built_iff p).1 h
  exact ⟨Int.natCast_pos.2 q.den_pos, q.reduced, q.num_le, Int.ofNat_le.2 q.den_le⟩

/-! ## Literals -/

/-- A literal that is read is computed from its digits in words. -/
theorem ofLiteral_eq_ok {text : String} {q : Fraction} (h : Fraction.ofLiteral text = .ok q) :
    ∃ value places, places ≤ Fraction.mostDecimals ∧
      ofDigits value places = some (.ok q.parts) := by
  unfold Fraction.ofLiteral at h
  extract_lets cs whole decimals places bad at h
  split at h
  · cases h
  split at h
  · cases h
  · next hplaces =>
    split at h
    · cases h
    · have hfew : places ≤ Fraction.mostDecimals := Nat.le_of_not_lt hplaces
      refine ⟨Decimal.digitsValue (whole ++ decimals), places, hfew, ?_⟩
      rw [ofDigits_eq hfew, h]
      rfl

end Words

end PuzzlePlayback.Calculator
