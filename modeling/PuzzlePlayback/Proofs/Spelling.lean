import PuzzlePlayback.Calculator.Expression
import PuzzlePlayback.Proofs.Terms

/-!
# How canonical text is cut into tokens

Canonical text is written without knowing the scanner. Here each piece of it is cut into the
tokens it was meant as: `Spells` says that of a piece of text, whatever comes after it, as long as
that does not go on with its last token. Pieces are put together by `Spells.append`, up to the
whole text of a polynomial (`tokensOf_render`).

A name is a text that is cut into that name alone. It starts with a letter, which is no digit, so
a coefficient ends where the name starts even if nothing stands between them.
-/

namespace PuzzlePlayback.Calculator

open Text

namespace Token

/-! ## Pieces of text -/

/-- Before anything that starts with a character allowed after it, the text is cut into the
tokens, and the cut goes on after it. -/
def Spells (after : Char → Bool) (cs : List Char) (ts : List Token) : Prop :=
  ∀ rest, (∀ c ∈ rest.head?, after c = true) → scan (cs ++ rest) = (scan rest).map (ts ++ ·)

/-- The character ends a number. -/
def endsNumber (c : Char) : Bool := !isNumberChar c

/-- The character ends a name. -/
def endsName (c : Char) : Bool := !isNameChar c

/-- The character ends a term, whatever its last token is. -/
def endsTerm (c : Char) : Bool := endsNumber c && endsName c

variable {after next : Char → Bool} {cs ds : List Char} {ts us : List Token}

theorem Spells.mono (h : Spells after cs ts) (hle : ∀ c, next c = true → after c = true) :
    Spells next cs ts :=
  fun rest hrest => h rest fun c hc => hle c (hrest c hc)

/-- Two pieces one after the other, where the second starts with what may follow the first. -/
theorem Spells.append (h : Spells after cs ts) (h' : Spells next ds us)
    (hhead : ∀ d ∈ ds.head?, after d = true)
    (hempty : ds = [] → ∀ c, next c = true → after c = true) :
    Spells next (cs ++ ds) (ts ++ us) := by
  intro rest hrest
  have hafter : ∀ c ∈ (ds ++ rest).head?, after c = true := by
    cases ds with
    | nil => exact fun c hc => hempty rfl c (hrest c hc)
    | cons d ds => exact hhead
  rw [List.append_assoc, h _ hafter, h' rest hrest]
  cases scan rest with
  | error e => rfl
  | ok vs => simp [Except.map]

/-- Anything may follow the first piece. -/
theorem Spells.append_any (h : Spells (fun _ => true) cs ts) (h' : Spells next ds us) :
    Spells next (cs ++ ds) (ts ++ us) :=
  h.append h' (fun _ _ => rfl) fun _ _ _ => rfl

/-- The second piece starts with a character that may follow the first. -/
theorem Spells.append_cons {d : Char} (h : Spells after cs ts) (h' : Spells next (d :: ds) us)
    (hd : after d = true) : Spells next (cs ++ d :: ds) (ts ++ us) :=
  h.append h' (by simpa using hd) nofun

theorem spells_nil : Spells after [] [] := by
  intro rest _
  cases h : scan rest <;> simp [Except.map, h]

theorem spells_sign {c : Char} {t : Token} (h : ofSign? c = some t)
    (hc : (isBlank c || isNumberChar c || isLetter c) = false) :
    Spells (fun _ => true) [c] [t] := by
  intro rest _
  simp only [Bool.or_eq_false_iff] at hc
  rw [List.singleton_append, scan]
  simp only [hc, h, Bool.false_eq_true, if_false]
  cases scan rest <;> rfl

theorem spells_blank {c : Char} (hc : isBlank c = true) : Spells (fun _ => true) [c] [] := by
  intro rest _
  rw [List.singleton_append, scan, if_pos hc]
  cases h : scan rest <;> simp [Except.map]

/-- A run of characters that pass a test ends where one does not. -/
theorem splitWhile_append {p : Char → Bool} (hcs : ∀ c ∈ cs, p c = true) (rest : List Char)
    (hrest : ∀ c ∈ rest.head?, (!p c) = true) :
    (cs ++ rest).takeWhile p = cs ∧ (cs ++ rest).dropWhile p = rest := by
  rw [List.takeWhile_append_of_pos hcs, List.dropWhile_append_of_pos hcs]
  cases rest with
  | nil => simp
  | cons c rest =>
    have hc : p c = false := by simpa using hrest c rfl
    simp [hc]

/-! ## Numbers -/

/-- A digit is not a blank, and it is not the point. -/
theorem isBlank_of_isDigit {c : Char} (h : c.isDigit = true) : isBlank c = false ∧ c ≠ '.' := by
  have hrange : 48 ≤ c.toNat ∧ c.toNat ≤ 57 := Char.isDigit_iff_toNat.1 h
  constructor
  · simp [isBlank]
    omega
  · rintro rfl
    exact absurd hrange (by decide)

/-- The digits of a number are read as that number. -/
theorem ofLiteral_toDigits {n : Nat} (h : n ≤ wordLimit) :
    Fraction.ofLiteral (String.ofList (Nat.toDigits 10 n)) = .ok (.ofInt n) := by
  have hdigit : ∀ c ∈ Nat.toDigits 10 n, c.isDigit = true :=
    fun c => Nat.isDigit_of_mem_toDigits (by decide) (by decide)
  have hpoint : ∀ c ∈ Nat.toDigits 10 n, decide (c ≠ '.') = true :=
    fun c hc => by simpa using (isBlank_of_isDigit (hdigit c hc)).2
  have hsplit := splitWhile_append hpoint [] nofun
  rw [List.append_nil] at hsplit
  have hvalue : Decimal.digitsValue (Nat.toDigits 10 n) = n := by
    rw [Decimal.digitsValue, ← Nat.ofDigitChars_eq_foldl, Nat.ofDigitChars_ten_toDigits]
  have hall : (Nat.toDigits 10 n).all Char.isDigit = true := List.all_eq_true.2 hdigit
  have hplaces : (String.ofList []).utf8ByteSize.toUInt32.toNat = 0 := rfl
  have hlimit : ¬ Fraction.mostDecimals < 0 := by decide
  have hempty : (Nat.toDigits 10 n).isEmpty = false := by simp
  simp only [Fraction.ofLiteral, String.toList_ofList, hsplit, List.drop_nil, hempty,
    Bool.false_and, hplaces, hlimit, List.append_nil, hall, hvalue]
  have hself := Fraction.ofQuotient_self (.ofInt n)
  rw [Fraction.num_ofInt (n := n) h] at hself
  exact hself

theorem spells_toDigits {n : Nat} (h : n ≤ wordLimit) :
    Spells endsNumber (Nat.toDigits 10 n) [.number (.ofInt n)] := by
  intro rest hrest
  have hliteral := ofLiteral_toDigits h
  have hdigit : ∀ c ∈ Nat.toDigits 10 n, c.isDigit = true :=
    fun c => Nat.isDigit_of_mem_toDigits (by decide) (by decide)
  cases hdigits : Nat.toDigits 10 n with
  | nil => exact absurd hdigits Nat.toDigits_ne_nil
  | cons c cs =>
    rw [hdigits] at hdigit hliteral
    have hnumber : ∀ d ∈ c :: cs, isNumberChar d = true :=
      fun d hd => by simp [isNumberChar, hdigit d hd]
    have hsplit := splitWhile_append (fun d hd => hnumber d (List.mem_cons_of_mem _ hd)) rest hrest
    rw [List.cons_append, scan, (isBlank_of_isDigit (hdigit c List.mem_cons_self)).1,
      if_neg Bool.false_ne_true, if_pos (hnumber c List.mem_cons_self), hsplit.1, hsplit.2,
      hliteral]
    cases scan rest <;> rfl

/-! ## Names -/

/-- The text is one name for the scanner. -/
def IsName (x : String) : Prop :=
  ∃ c cs, x.toList = c :: cs ∧ isBlank c = false ∧ isNumberChar c = false ∧ isLetter c = true ∧
    ∀ d ∈ cs, isNameChar d = true

theorem spells_name {x : String} (h : IsName x) : Spells endsName x.toList [.name x] := by
  obtain ⟨c, cs, hx, hblank, hnumber, hletter, hcs⟩ := h
  intro rest hrest
  have hsplit := splitWhile_append hcs rest hrest
  rw [hx, List.cons_append, scan, hblank, if_neg Bool.false_ne_true, hnumber,
    if_neg Bool.false_ne_true, if_pos hletter, hsplit.1, hsplit.2, ← hx, String.ofList_toList]
  cases scan rest <;> rfl

theorem ofSign?_ne_name (c : Char) (x : String) : ofSign? c ≠ some (.name x) := by
  unfold ofSign?
  split <;> nofun

/-- Every name that the scanner cuts out is one name. -/
theorem isName_of_mem_scan {cs : List Char} {ts : List Token} (h : scan cs = .ok ts) {x : String}
    (hx : .name x ∈ ts) : IsName x := by
  induction cs using scan.induct generalizing ts with
  | case1 =>
    rw [scan] at h
    cases h
    cases hx
  | case2 c cs hblank ih =>
    rw [scan, if_pos hblank] at h
    exact ih h hx
  | case3 c cs hblank hnumber ih =>
    rw [scan, if_neg hblank, if_pos hnumber] at h
    obtain ⟨value, _, h⟩ := bind_eq_ok h
    obtain ⟨us, hus, h⟩ := bind_eq_ok h
    cases h
    exact ih hus (by simpa using hx)
  | case4 c cs hblank hnumber hletter ih =>
    rw [scan, if_neg hblank, if_neg hnumber, if_pos hletter] at h
    obtain ⟨us, hus, h⟩ := bind_eq_ok h
    cases h
    rcases List.mem_cons.1 hx with heq | hx
    · refine ⟨c, cs.takeWhile isNameChar, ?_, by simpa using hblank, by simpa using hnumber,
        hletter, fun d hd => List.all_eq_true.1 List.all_takeWhile d hd⟩
      rw [Token.name.inj heq, String.toList_ofList]
    · exact ih hus hx
  | case5 c cs hblank hnumber hletter t ht ih =>
    rw [scan, if_neg hblank, if_neg hnumber, if_neg hletter, ht] at h
    obtain ⟨us, hus, h⟩ := bind_eq_ok h
    cases h
    rcases List.mem_cons.1 hx with rfl | hx
    · exact absurd ht (ofSign?_ne_name c x)
    · exact ih hus hx
  | case6 c cs hblank hnumber hletter hsign =>
    rw [scan, if_neg hblank, if_neg hnumber, if_neg hletter, hsign] at h
    cases h

/-- A text is one name for the scanner exactly if it is cut into that name alone. -/
theorem tokensOf_eq_name_iff {x : String} : tokensOf x = .ok [.name x] ↔ IsName x := by
  constructor
  · intro h
    exact isName_of_mem_scan h List.mem_cons_self
  · intro h
    have hscan := spells_name h [] nofun
    rw [List.append_nil] at hscan
    rw [tokensOf, hscan, scan]
    rfl

/-! ## Canonical text -/

theorem toList_toString_nat (n : Nat) : (toString n).toList = Nat.toDigits 10 n := by
  rw [Nat.toString_eq_ofList_toDigits, String.toList_ofList]

theorem toList_toString_int (n : Int) : (toString n).toList =
    if 0 ≤ n then Nat.toDigits 10 n.toNat else '-' :: Nat.toDigits 10 (-n).toNat := by
  rw [Int.toString_eq_repr, Int.repr_eq_if]
  split <;> simp [Nat.repr_eq_ofList_toDigits]

/-- The tokens of the text of a fraction without a sign. -/
def ofFraction (q : Fraction) : List Token :=
  if q.isInteger then [.number (.ofInt q.num)]
  else [.number (.ofInt q.num), .over, .number (.ofInt q.den)]

/-- The tokens of an exponent; that of the variable itself is left out. -/
def ofExponent (degree : Int) : List Token :=
  if degree = 1 then []
  else if 0 ≤ degree then [.power, .number (.ofInt degree)]
  else [.power, .minus, .number (.ofInt (-degree))]

/-- The tokens of a coefficient before the variable. -/
def ofCoefficient (implicit : Bool) (magnitude : Fraction) : List Token :=
  if magnitude = .one then []
  else (if magnitude.isInteger then ofFraction magnitude
    else .leftParen :: (ofFraction magnitude ++ [.rightParen])) ++ if implicit then [] else [.times]

/-- The tokens of a term without its sign. -/
def ofTerm (x : String) (implicit : Bool) (degree : Int) (magnitude : Fraction) : List Token :=
  if degree = 0 then ofFraction magnitude
  else ofCoefficient implicit magnitude ++ .name x :: ofExponent degree

theorem spells_int {n : Int} (hn : 0 ≤ n) (hlimit : n.natAbs ≤ wordLimit) :
    Spells endsNumber (toString n).toList [.number (.ofInt n)] := by
  have hspells := spells_toDigits (n := n.toNat) (by omega)
  rw [Int.toNat_of_nonneg hn] at hspells
  rwa [toList_toString_int, if_pos hn]

theorem spells_fraction {q : Fraction} (h : 0 ≤ q.num) :
    Spells endsNumber q.render.toList (ofFraction q) := by
  have hnum := spells_int h q.num_le
  unfold Fraction.render ofFraction
  split
  · exact hnum
  · have hover := spells_sign (c := '/') rfl (by decide)
    have hden := spells_toDigits q.den_le
    rw [String.toList_append, String.toList_append, toList_toString_nat, List.append_assoc]
    exact hnum.append_cons (hover.append_any hden) rfl

/-- A number also ends where a term does. -/
theorem Spells.term_of_number (h : Spells endsNumber cs ts) : Spells endsTerm cs ts :=
  h.mono fun _ hc => (Bool.and_eq_true_iff.1 hc).1

/-- A name also ends where a term does. -/
theorem Spells.term_of_name (h : Spells endsName cs ts) : Spells endsTerm cs ts :=
  h.mono fun _ hc => (Bool.and_eq_true_iff.1 hc).2

theorem spells_exponent {degree : Int} (hone : degree ≠ 1) (h : degree.natAbs ≤ wordLimit) :
    Spells endsNumber ('^' :: (toString degree).toList) (ofExponent degree) := by
  have hpower := spells_sign (c := '^') rfl (by decide)
  rw [ofExponent, if_neg hone]
  split
  · next hsign => exact hpower.append_any (spells_int hsign h)
  · next hsign =>
    have hminus := spells_sign (c := '-') rfl (by decide)
    have hdigits := spells_toDigits (n := (-degree).toNat) (by omega)
    rw [Int.toNat_of_nonneg (by omega)] at hdigits
    rw [toList_toString_int, if_neg hsign]
    exact hpower.append_any (hminus.append_any hdigits)

theorem spells_power {x : String} (hx : IsName x) {degree : Int}
    (h : degree.natAbs ≤ wordLimit) :
    Spells endsTerm (x ++ if degree = 1 then "" else "^" ++ toString degree).toList
      (.name x :: ofExponent degree) := by
  have hname := spells_name hx
  rw [String.toList_append]
  by_cases hone : degree = 1
  · simpa [hone, ofExponent] using hname.term_of_name
  · rw [if_neg hone, String.toList_append]
    exact hname.append_cons (spells_exponent hone h).term_of_number rfl

/-- The coefficient before a power, where the power does not start with a digit. -/
theorem spells_coefficient {implicit : Bool} {magnitude : Fraction} (h : 0 ≤ magnitude.num)
    {c : Char} {cs : List Char} {ts : List Token} (hc : endsNumber c = true)
    (hpower : Spells endsTerm (c :: cs) ts) :
    Spells endsTerm ((if magnitude = .one then ""
      else (if magnitude.isInteger then magnitude.render else "(" ++ magnitude.render ++ ")") ++
        (if implicit then "" else "*")).toList ++ c :: cs)
      (ofCoefficient implicit magnitude ++ ts) := by
  have hfraction := spells_fraction h
  have hnumber : Spells endsNumber
      (if magnitude.isInteger then magnitude.render else "(" ++ magnitude.render ++ ")").toList
      (if magnitude.isInteger then ofFraction magnitude
        else .leftParen :: (ofFraction magnitude ++ [.rightParen])) := by
    split
    · exact hfraction
    · have hleft := spells_sign (c := '(') rfl (by decide)
      have hright := spells_sign (c := ')') rfl (by decide)
      rw [String.toList_append, String.toList_append, List.append_assoc]
      exact hleft.append_any (hfraction.append_cons (hright.mono fun _ _ => rfl) rfl)
  unfold ofCoefficient
  split
  · exact hpower
  rw [String.toList_append, List.append_assoc, List.append_assoc]
  cases implicit with
  | true => exact hnumber.append_cons hpower hc
  | false =>
    have htimes := spells_sign (c := '*') rfl (by decide)
    exact hnumber.append_cons (htimes.append_any hpower) rfl

/-- The text of a term is cut into the tokens of the term. Only the constant term can do without a
name. -/
theorem spells_term {x : String} (implicit : Bool) {degree : Int} {magnitude : Fraction}
    (hx : IsName x ∨ degree = 0) (h : 0 ≤ magnitude.num) (hdegree : degree.natAbs ≤ wordLimit) :
    Spells endsTerm (Laurent.renderTerm x implicit degree magnitude).toList
      (ofTerm x implicit degree magnitude) := by
  unfold Laurent.renderTerm ofTerm
  split
  · exact (spells_fraction h).term_of_number
  · next hne =>
    have hpower := spells_power (hx.resolve_right hne) hdegree
    obtain ⟨c, cs, hc, _, hnumber, _⟩ := hx.resolve_right hne
    rw [String.toList_append, hc, List.cons_append] at hpower
    have hend : endsNumber c = true := by simp [endsNumber, hnumber]
    rw [String.append_assoc, String.toList_append, String.toList_append, hc]
    exact spells_coefficient h hend hpower

/-- The tokens of a term with its sign, after another term. -/
def ofSummand (x : String) (implicit : Bool) (t : Int × Fraction) : List Token :=
  (if t.2.isNegative then .minus else .plus) :: ofTerm x implicit t.1 t.2.abs

/-- The tokens of the minus in front of a first term. -/
def ofMinus (minus : Bool) : List Token := if minus then [.minus] else []

/-- The tokens of the text of a polynomial. -/
def ofLaurent (p : Laurent) (x : String) (implicit : Bool) : List Token :=
  match p.terms.entries.reverse with
  | [] => [.number .zero]
  | t :: rest =>
    ofMinus t.2.isNegative ++ ofTerm x implicit t.1 t.2.abs ++
      rest.flatMap (ofSummand x implicit)

/-- The scanner can cut the terms: there is a name for the variable or they are constant, and
their degrees can be read. -/
def Writable (x : String) (entries : List (Int × Fraction)) : Prop :=
  ∀ t ∈ entries, (IsName x ∨ t.1 = 0) ∧ t.1.natAbs ≤ wordLimit

/-- A term with its sign, after another term. -/
def summand (x : String) (implicit : Bool) (t : Int × Fraction) : String :=
  (if t.2.isNegative then " - " else " + ") ++ Laurent.renderTerm x implicit t.1 t.2.abs

theorem spells_summand {x : String} (implicit : Bool) {t : Int × Fraction}
    (h : (IsName x ∨ t.1 = 0) ∧ t.1.natAbs ≤ wordLimit) :
    ∃ cs, (summand x implicit t).toList = ' ' :: cs ∧
      Spells endsTerm (' ' :: cs) (ofSummand x implicit t) := by
  have hblank := spells_blank (c := ' ') rfl
  have hterm := spells_term implicit h.1 t.2.num_abs_nonneg h.2
  unfold summand ofSummand
  rw [String.toList_append]
  cases t.2.isNegative with
  | true =>
    have hsign := spells_sign (c := '-') rfl (by decide)
    exact ⟨_, rfl, hblank.append_any (hsign.append_any (hblank.append_any hterm))⟩
  | false =>
    have hsign := spells_sign (c := '+') rfl (by decide)
    exact ⟨_, rfl, hblank.append_any (hsign.append_any (hblank.append_any hterm))⟩

theorem spells_summands {x : String} (implicit : Bool) {terms : List (Int × Fraction)}
    (h : Writable x terms) :
    Spells endsTerm (String.join (terms.map (summand x implicit))).toList
      (terms.flatMap (ofSummand x implicit)) ∧
    ∀ c ∈ (String.join (terms.map (summand x implicit))).toList.head?, endsTerm c = true := by
  induction terms with
  | nil => exact ⟨spells_nil, nofun⟩
  | cons t terms ih =>
    obtain ⟨hterms, hhead⟩ := ih fun t ht => h t (List.mem_cons_of_mem _ ht)
    obtain ⟨cs, hcs, hspells⟩ := spells_summand implicit (h t List.mem_cons_self)
    rw [List.map_cons, String.join_cons, String.toList_append, hcs]
    exact ⟨hspells.append hterms hhead fun _ _ hc => hc, by simp [endsTerm]; decide⟩

/-- **Canonical text is cut into the tokens it was written from.** -/
theorem tokensOf_render {p : Laurent} {x : String} (implicit : Bool)
    (h : Writable x p.terms.entries) :
    tokensOf (p.render x implicit) = .ok (ofLaurent p x implicit) := by
  have hspells : Spells endsTerm (p.render x implicit).toList (ofLaurent p x implicit) := by
    unfold Laurent.render ofLaurent
    have hreverse : Writable x p.terms.entries.reverse := fun t ht => h t (List.mem_reverse.1 ht)
    split
    · next hnil =>
      rw [hnil]
      exact (spells_toDigits (n := 0) (by decide)).term_of_number
    · next degree coef rest hcons =>
      rw [hcons] at hreverse ⊢
      obtain ⟨hx, hdegree⟩ := hreverse (degree, coef) List.mem_cons_self
      obtain ⟨hrest, hhead⟩ := spells_summands implicit
        fun t ht => hreverse t (List.mem_cons_of_mem _ ht)
      have hterm := spells_term implicit hx coef.num_abs_nonneg hdegree
      have hfirst : Spells endsTerm ((if coef.isNegative then "-" else "") ++
          Laurent.renderTerm x implicit degree coef.abs).toList
          (ofMinus coef.isNegative ++ ofTerm x implicit degree coef.abs) := by
        rw [String.toList_append]
        cases coef.isNegative with
        | true => exact (spells_sign (c := '-') rfl (by decide)).append_any hterm
        | false => exact hterm
      rw [String.toList_append]
      exact hfirst.append hrest hhead fun _ _ hc => hc
  have hscan := hspells [] nofun
  rw [List.append_nil] at hscan
  rw [tokensOf, hscan, scan]
  exact congrArg _ (List.append_nil _)

end Token

end PuzzlePlayback.Calculator
