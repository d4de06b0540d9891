import PuzzlePlayback.Proofs.Degrees

/-!
# Reading canonical text again

The reader makes of the text of a polynomial that polynomial again, as long as every degree is an
exponent that it accepts (`Legible`); if one is not, it refuses the text (`ofText_render`). So
canonical texts can stand for polynomials.

The tokens of the text are derived piece by piece, each with what it comes to. The terms come from
the highest degree down, and what has been added up so far has the entries from there on.
-/

namespace PuzzlePlayback.Calculator

open Expression Token

/-! ## A term -/

/-- What the text of a term comes to when it is read. -/
def termValue (coef : Fraction) (degree : Int) : Except Failure Laurent :=
  if degree.natAbs ≤ 16 then .ok (.monomial coef degree) else .error .exponentRange

/-- The fraction with this magnitude and a minus or not. -/
def Fraction.signed (minus : Bool) (magnitude : Fraction) : Fraction :=
  if minus then magnitude.neg else magnitude

variable {x : String}

theorem derives_signed {ts : List Token} {v : Except Failure Laurent} (minus : Bool)
    (h : Derives x .power ts v) :
    Derives x .signed (ofMinus minus ++ ts) (if minus then v.map Laurent.neg else v) := by
  cases minus with
  | true => exact h.unsigned.opposite
  | false => exact h.unsigned

/-- A minus in front turns the coefficient around. -/
theorem signed_termValue (minus : Bool) (coef : Fraction) (degree : Int) :
    (if minus then (termValue coef degree).map Laurent.neg else termValue coef degree) =
      termValue (coef.signed minus) degree := by
  cases minus with
  | false => rfl
  | true =>
    unfold termValue Fraction.signed
    by_cases h : degree.natAbs ≤ 16
    · simp only [if_pos h, Except.map, Laurent.neg_monomial, if_true]
    · simp only [if_neg h, Except.map, if_true]

theorem derives_constant (minus : Bool) {ts : List Token} {q : Fraction}
    (h : Derives x .power ts (.ok (.constant q))) :
    Derives x .signed (ofMinus minus ++ ts) (.ok (.constant (q.signed minus))) := by
  have hsigned := derives_signed minus h
  rwa [show Except.ok (.constant q) = termValue q 0 from rfl, signed_termValue] at hsigned

theorem num_signed_ne_zero (minus : Bool) {q : Fraction} (h : q.num ≠ 0) :
    (q.signed minus).num ≠ 0 := by
  cases minus with
  | false => exact h
  | true => exact Int.neg_ne_zero.2 h

/-- A fraction is read as the quotient of its parts; the minus is that of its numerator. -/
theorem derives_fraction (minus : Bool) {q : Fraction} (h : q.num ≠ 0) :
    Derives x .product (ofMinus minus ++ ofFraction q) (.ok (.constant (q.signed minus))) := by
  unfold ofFraction
  split
  · next hinteger =>
    rw [Fraction.ofInt_num hinteger]
    exact (derives_constant minus (Derives.number q).base).factor
  · have hnum := derives_constant minus (Derives.number (x := x) (.ofInt q.num)).base
    have hden := (Derives.number (x := x) (.ofInt q.den)).base.unsigned
    have hparts : (Fraction.ofInt q.num).signed minus = .ofInt (q.signed minus).num ∧
        q.den = (q.signed minus).den := by
      cases minus with
      | false => exact ⟨rfl, rfl⟩
      | true => exact ⟨Fraction.ofInt_neg q.num_le, rfl⟩
    have hquotient := hnum.factor.quotient hden
    rw [hparts.1, hparts.2, List.append_assoc] at hquotient
    rw [hparts.2]
    have hdiv := Laurent.div_constant (num_signed_ne_zero minus h)
    rwa [show combine Laurent.div (.ok (.constant (.ofInt (q.signed minus).num)))
      (.ok (.constant (.ofInt (q.signed minus).den))) = .ok (.constant (q.signed minus)) from hdiv]
      at hquotient

/-- A power of the variable is a term with the coefficient one. -/
theorem derives_power {degree : Int} (h : degree.natAbs ≤ wordLimit) :
    Derives x .power (.name x :: ofExponent degree) (termValue .one degree) := by
  have hpow : Laurent.var.pow degree = termValue .one degree := Laurent.pow_var degree
  rw [← hpow]
  unfold ofExponent
  split
  · next hone =>
    rw [hone]
    exact Derives.unknown.base
  split
  · have hraised := (Derives.unknown (x := x)).raised (q := .ofInt degree) rfl
    rwa [Fraction.num_ofInt h] at hraised
  · have hlowered := (Derives.unknown (x := x)).lowered (q := .ofInt (-degree)) rfl
    rwa [Fraction.num_ofInt (by rwa [Int.natAbs_neg]), Int.neg_neg] at hlowered

theorem mul_termValue {coef : Fraction} (h : coef.num ≠ 0) (degree : Int) :
    combine Laurent.mul (.ok (.constant coef)) (termValue .one degree) = termValue coef degree := by
  unfold termValue
  split
  · next hrange =>
    have hfits : degreeFits (0 + degree) = true := Laurent.degreeFits_of_natAbs_le (by omega)
    have hmul := Laurent.mul_monomial h Int.one_ne_zero hfits coef.mul_one
    rw [Int.zero_add] at hmul
    exact hmul
  · rfl

/-- **A term is read as that term.** A minus in front, if there is one, is that of its
coefficient. -/
theorem derives_term (minus implicit : Bool) {coef : Fraction} (h : coef.num ≠ 0) {degree : Int}
    (hdegree : degree.natAbs ≤ wordLimit) :
    Derives x .product (ofMinus minus ++ ofTerm x implicit degree coef)
      (termValue (coef.signed minus) degree) := by
  have hpower := derives_power (x := x) hdegree
  unfold ofTerm
  split
  · next hzero =>
    rw [hzero]
    exact derives_fraction minus h
  unfold ofCoefficient
  split
  · next hone =>
    rw [hone, ← signed_termValue]
    exact (derives_signed minus hpower).factor
  · have hcoef : Derives x .signed (ofMinus minus ++ if coef.isInteger then ofFraction coef
        else .leftParen :: (ofFraction coef ++ [.rightParen]))
        (.ok (.constant (coef.signed minus))) := by
      split
      · next hinteger =>
        rw [ofFraction, if_pos hinteger, Fraction.ofInt_num hinteger]
        exact derives_constant minus (Derives.number coef).base
      · exact derives_constant minus (derives_fraction false h).summand.parens.base
    rw [← mul_termValue (num_signed_ne_zero minus h)]
    cases implicit with
    | true =>
      have hproduct := hcoef.factor.juxtaposed hpower.unsigned trivial
      simpa using hproduct
    | false =>
      have hproduct := hcoef.factor.times hpower.unsigned
      simpa using hproduct

/-! ## A polynomial -/

/-- Every degree is an exponent that the reader accepts. -/
def Legible (p : Laurent) : Prop := ∀ t ∈ p.terms.entries, -16 ≤ t.1 ∧ t.1 ≤ 16

instance (p : Laurent) : Decidable (Legible p) :=
  inferInstanceAs (Decidable (∀ t ∈ p.terms.entries, -16 ≤ t.1 ∧ t.1 ≤ 16))

theorem termValue_of_legible {degree : Int} (h : -16 ≤ degree ∧ degree ≤ 16) (coef : Fraction) :
    termValue coef degree = .ok (.monomial coef degree) := if_pos (by omega)

theorem termValue_of_not_legible {degree : Int} (h : ¬ (-16 ≤ degree ∧ degree ≤ 16))
    (coef : Fraction) : termValue coef degree = .error .exponentRange := if_neg (by omega)

theorem num_abs_ne_zero {coef : Fraction} (h : coef.num ≠ 0) : coef.abs.num ≠ 0 :=
  Int.natCast_ne_zero.2 (Int.natAbs_ne_zero.2 h)

/-- A coefficient is its magnitude with its sign. -/
theorem abs_signed (coef : Fraction) : coef.abs.signed coef.isNegative = coef := by
  by_cases h : coef.num < 0
  · have hminus : coef.isNegative = true := decide_eq_true h
    rw [hminus]
    refine Fraction.ext ?_ rfl
    show -(coef.num.natAbs : Int) = coef.num
    omega
  · have hplus : coef.isNegative = false := decide_eq_false h
    rw [hplus]
    refine Fraction.ext ?_ rfl
    show (coef.num.natAbs : Int) = coef.num
    omega

/-- Taking a term away is adding its opposite. -/
theorem sub_termValue (v : Except Failure Laurent) (coef : Fraction) (degree : Int) :
    combine Laurent.sub v (termValue coef degree) =
      combine Laurent.add v (termValue coef.neg degree) := by
  have hneg : (termValue coef degree).map Laurent.neg = termValue coef.neg degree :=
    signed_termValue true coef degree
  rw [← hneg]
  cases v with
  | error e => rfl
  | ok p => cases termValue coef degree <;> rfl

/-- One more summand is added with its sign. -/
theorem derives_summand (implicit : Bool) {ts : List Token} {v : Except Failure Laurent}
    (hv : Derives x .sum ts v) {t : Int × Fraction} (hcoef : t.2.num ≠ 0)
    (hdegree : t.1.natAbs ≤ wordLimit) :
    Derives x .sum (ts ++ ofSummand x implicit t)
      (combine Laurent.add v (termValue t.2 t.1)) := by
  have hterm := derives_term (x := x) false implicit (num_abs_ne_zero hcoef) hdegree
  have habs := abs_signed t.2
  unfold ofSummand
  cases hsign : t.2.isNegative with
  | false =>
    have hplus : t.2.abs = t.2 := by rwa [hsign] at habs
    have hsum := hv.plus hterm
    rwa [show t.2.abs.signed false = t.2 from hplus] at hsum
  | true =>
    have hminus : t.2.abs.neg = t.2 := by rwa [hsign] at habs
    have hsum := hv.minus hterm
    rwa [show t.2.abs.signed false = t.2.abs from rfl, sub_termValue, hminus] at hsum

/-- A refused sum is refused with whatever follows it. -/
theorem derives_summands_error (implicit : Bool) {e : Failure} {terms : List (Int × Fraction)}
    {before : List Token} (h : Derives x .sum before (.error e))
    (hterms : ∀ t ∈ terms, t.2.num ≠ 0 ∧ t.1.natAbs ≤ wordLimit) :
    Derives x .sum (before ++ terms.flatMap (ofSummand x implicit)) (.error e) := by
  induction terms generalizing before with
  | nil => simpa using h
  | cons t terms ih =>
    obtain ⟨⟨hcoef, hdegree⟩, hrest⟩ := List.forall_mem_cons.1 hterms
    rw [List.flatMap_cons, ← List.append_assoc]
    exact ih (derives_summand implicit h hcoef hdegree) hrest

/-- The terms of `q` after those of `p`, which are of higher degrees, complete `p` to `q`. By
induction on these terms: each completes a polynomial that has one entry more. -/
theorem derives_summands (implicit : Bool) {p q : Laurent} {before : List Token}
    (hp : Derives x .sum before (.ok p)) (terms : List (Int × Fraction))
    (hq : q.terms.entries = terms.reverse ++ p.terms.entries)
    (hterms : ∀ t ∈ terms, t.1.natAbs ≤ wordLimit) :
    Derives x .sum (before ++ terms.flatMap (ofSummand x implicit))
      (if ∀ t ∈ terms, -16 ≤ t.1 ∧ t.1 ≤ 16 then .ok q else .error .exponentRange) := by
  induction terms generalizing p before with
  | nil =>
    have hpq : q = p := Laurent.ext (SortedMap.ext hq)
    simpa [hpq] using hp
  | cons t terms ih =>
    obtain ⟨hdegree, hrest⟩ := List.forall_mem_cons.1 hterms
    have hentries : q.terms.entries = terms.reverse ++ t :: p.terms.entries := by simpa using hq
    have hnonzero : ∀ s ∈ t :: terms, s.2.num ≠ 0 := fun s hs => q.nonzero s (by
      rw [hq]
      exact List.mem_append_left _ (List.mem_reverse.2 hs))
    have hsum := derives_summand implicit hp (hnonzero t List.mem_cons_self) hdegree
    rw [List.flatMap_cons, ← List.append_assoc]
    by_cases hlegible : -16 ≤ t.1 ∧ t.1 ≤ 16
    · -- What has been added up so far has the entries of `q` from this term on.
      have hsuffix : (t :: p.terms.entries).Sublist q.terms.entries := by
        rw [hentries]
        exact List.sublist_append_right _ _
      let longer : Laurent := ⟨⟨t :: p.terms.entries, q.terms.sorted.sublist hsuffix⟩,
        fun s hs => q.nonzero s (hsuffix.subset hs)⟩
      have hadd : p.add (.monomial t.2 t.1) = .ok longer := Laurent.add_below rfl
      rw [termValue_of_legible hlegible] at hsum
      have hlonger : Derives x .sum (before ++ ofSummand x implicit t) (.ok longer) := hadd ▸ hsum
      have hcomplete := ih hlonger hentries hrest
      simpa only [List.forall_mem_cons, hlegible, true_and] using hcomplete
    · rw [termValue_of_not_legible hlegible] at hsum
      have herror : Derives x .sum (before ++ ofSummand x implicit t) (.error .exponentRange) :=
        hsum
      rw [if_neg fun h => hlegible (h t List.mem_cons_self)]
      exact derives_summands_error implicit herror fun s hs =>
        ⟨hnonzero s (List.mem_cons_of_mem _ hs), hrest s hs⟩

theorem derives_ofLaurent (p : Laurent) (implicit : Bool)
    (h : ∀ t ∈ p.terms.entries, t.1.natAbs ≤ wordLimit) :
    Derives x .sum (ofLaurent p x implicit)
      (if Legible p then .ok p else .error .exponentRange) := by
  have hreverse : Legible p ↔ ∀ t ∈ p.terms.entries.reverse, -16 ≤ t.1 ∧ t.1 ≤ 16 := by
    simp only [Legible, List.mem_reverse]
  simp only [hreverse]
  unfold ofLaurent
  cases hentries : p.terms.entries.reverse with
  | nil =>
    have hnil : p.terms.entries = [] := by simpa using congrArg List.reverse hentries
    have hzero : p = .constant .zero := Laurent.ext (SortedMap.ext hnil)
    rw [if_pos nofun, hzero]
    exact (Derives.number .zero).base.unsigned.factor.summand
  | cons t terms =>
    have hsplit : p.terms.entries = terms.reverse ++ [t] := by
      simpa using congrArg List.reverse hentries
    have hmem : ∀ s ∈ t :: terms, s ∈ p.terms.entries := fun s hs => by
      rw [← List.mem_reverse, hentries]
      exact hs
    have ht := hmem t List.mem_cons_self
    have hterms : ∀ s ∈ terms, s.2.num ≠ 0 ∧ s.1.natAbs ≤ wordLimit := fun s hs =>
      have hs := hmem s (List.mem_cons_of_mem _ hs)
      ⟨p.nonzero s hs, h s hs⟩
    have hfirst := (derives_term (x := x) t.2.isNegative implicit
      (num_abs_ne_zero (p.nonzero t ht)) (h t ht)).summand
    rw [abs_signed] at hfirst
    by_cases hlegible : -16 ≤ t.1 ∧ t.1 ≤ 16
    · rw [termValue_of_legible hlegible] at hfirst
      have hstart :
          p.terms.entries = terms.reverse ++ (Laurent.monomial t.2 t.1).terms.entries := by
        rw [hsplit, Laurent.entries_monomial (p.nonzero t ht)]
      have hcomplete := derives_summands implicit hfirst terms hstart fun s hs => (hterms s hs).2
      simpa only [List.forall_mem_cons, hlegible, true_and] using hcomplete
    · rw [termValue_of_not_legible hlegible] at hfirst
      rw [if_neg fun hall => hlegible (hall t List.mem_cons_self)]
      exact derives_summands_error implicit hfirst hterms

/-- **A canonical text is read as its polynomial, or refused for an exponent.** -/
theorem ofText_render (p : Laurent) (implicit : Bool) (h : Writable x p.terms.entries) :
    Laurent.ofText (p.render x implicit) x =
      if Legible p then .ok p else .error .exponentRange :=
  (derives_ofLaurent p implicit fun t ht => (h t ht).2).ofText (tokensOf_render implicit h)

/-- What a legible polynomial is denoted by can be replaced by its canonical text. -/
theorem ofText_render_of_ofText {text : String} {p : Laurent} (h : Laurent.ofText text x = .ok p)
    (hp : Legible p) (implicit : Bool) : Laurent.ofText (p.render x implicit) x = .ok p := by
  rw [ofText_render p implicit (within_of_ofText h).writable, if_pos hp]

/-- **Reading undoes writing.** If the scanner takes the variable for one name, the canonical text
of a polynomial is read as that polynomial, with degrees from -16 to 16. So the canonical text of a
text is its own canonical text, and two texts have the same one exactly if they denote the same
polynomial; for these the variable may be any text. -/
theorem render_reads_back (x : String) (implicit : Bool) :
    (tokensOf x = .ok [.name x] → ∀ p, Legible p →
      Laurent.ofText (p.render x implicit) x = .ok p) ∧
    (∀ text p, Laurent.ofText text x = .ok p → Legible p →
      ∃ canonical, canonicalText text x implicit = .ok canonical ∧
        canonicalText canonical x implicit = .ok canonical) ∧
    ∀ text₁ text₂ p₁ p₂, Laurent.ofText text₁ x = .ok p₁ → Laurent.ofText text₂ x = .ok p₂ →
      Legible p₁ → Legible p₂ →
      (canonicalText text₁ x implicit = canonicalText text₂ x implicit ↔ p₁ = p₂) := by
  refine ⟨fun hx p hp => ?_, fun text p htext hp => ?_, fun text₁ text₂ p₁ p₂ h₁ h₂ hp₁ hp₂ => ?_⟩
  · have hwritable : Writable x p.terms.entries := fun t ht => by
      obtain ⟨hlow, hhigh⟩ := hp t ht
      have hlimit : wordLimit = 9223372036854775807 := rfl
      exact ⟨.inl (tokensOf_eq_name_iff.1 hx), by omega⟩
    rw [ofText_render p implicit hwritable, if_pos hp]
  · refine ⟨p.render x implicit, ?_, ?_⟩
    · rw [canonicalText, htext]
      rfl
    · rw [canonicalText, ofText_render_of_ofText htext hp]
      rfl
  · rw [canonicalText, canonicalText, h₁, h₂]
    constructor
    · intro heq
      have htexts : p₁.render x implicit = p₂.render x implicit := Except.ok.inj heq
      have hread₁ := ofText_render_of_ofText h₁ hp₁ implicit
      rw [htexts, ofText_render_of_ofText h₂ hp₂ implicit] at hread₁
      exact (Except.ok.inj hread₁).symm
    · rintro rfl
      rfl

/-- The term `-(3/4)x^-2`. -/
def brokenTerm : Laurent :=
  .monomial ⟨-3, 4, by decide, by decide, by decide, by decide⟩ (-2)

/-- Reading undoes writing for a term with a sign, a broken coefficient and a negative exponent,
which both texts denote. -/
theorem render_reads_back_brokenTerm :
    (tokensOf "x" = .ok [.name "x"] ∧ Legible brokenTerm ∧
      Laurent.ofText (brokenTerm.render "x" true) "x" = .ok brokenTerm) ∧
    (∃ canonical, canonicalText "-3/4/x/x" "x" true = .ok canonical ∧
      canonicalText canonical "x" true = .ok canonical) ∧
    canonicalText "-3/4/x/x" "x" true = canonicalText "-0.75x^-2" "x" true := by
  obtain ⟨hrender, hcanonical, hequal⟩ := render_reads_back "x" true
  have hx : tokensOf "x" = .ok [.name "x"] := by cbv
  have hlegible : Legible brokenTerm := by decide
  have hquotient : Laurent.ofText "-3/4/x/x" "x" = .ok brokenTerm := by cbv
  have hdecimal : Laurent.ofText "-0.75x^-2" "x" = .ok brokenTerm := by cbv
  exact ⟨⟨hx, hlegible, hrender hx brokenTerm hlegible⟩,
    hcanonical "-3/4/x/x" brokenTerm hquotient hlegible,
    (hequal _ _ _ _ hquotient hdecimal hlegible hlegible).2 rfl⟩

end PuzzlePlayback.Calculator
