import PuzzlePlayback.Proofs.Grammar
import PuzzlePlayback.Proofs.Spelling

/-!
# The degrees that occur

A set of degrees that holds zero and that multiplication and division do not leave, where their
results fit, holds every degree of a polynomial that is computed from its terms (`DegreeSet`).
Two such sets are of use: the degrees that fit their word, and zero alone, which is all that a
text without the variable can have. So whatever a text denotes can be written again
(`within_of_ofText`).
-/

namespace PuzzlePlayback.Calculator

open Expression Token

/-- Computing does not lead out of these degrees. -/
structure DegreeSet (D : Int → Prop) : Prop where
  zero : D 0
  add : ∀ {d e : Int}, D d → D e → degreeFits (d + e) = true → D (d + e)
  neg : ∀ {d : Int}, D d → degreeFits (-d) = true → D (-d)

namespace Laurent

/-- All degrees of the polynomial are of these. -/
def Within (D : Int → Prop) (p : Laurent) : Prop := ∀ t ∈ p.terms.entries, D t.1

variable {D : Int → Prop} {p q r : Laurent}

theorem within_zero : zero.Within D := nofun

theorem Within.put (hp : p.Within D) {degree : Int} (hd : D degree) (coef : Fraction) :
    (p.put degree coef).Within D := by
  intro t ht
  unfold Laurent.put at ht
  split at ht
  · exact hp t (List.mem_filter.1 ht).1
  · rcases SortedMap.mem_insertEntry ht with rfl | ht
    · exact hd
    · exact hp t ht

theorem within_monomial {degree : Int} (hd : D degree) (coef : Fraction) :
    (monomial coef degree).Within D := within_zero.put hd coef

theorem Within.addTerm (hp : p.Within D) {degree : Int} (hd : D degree) {coef : Fraction}
    (h : p.addTerm degree coef = .ok r) : r.Within D := by
  unfold Laurent.addTerm at h
  split at h
  · obtain ⟨sum, _, rfl⟩ := map_eq_ok h
    exact hp.put hd sum
  · cases h
    exact hp.put hd coef

/-- Steps that keep to the degrees do so one after the other. -/
theorem Within.foldlM {terms : List (Int × Fraction)}
    {f : Laurent → Int × Fraction → Except Failure Laurent}
    (hf : ∀ sum t next, t ∈ terms → sum.Within D → f sum t = .ok next → next.Within D)
    (hp : p.Within D) (h : terms.foldlM f p = .ok r) : r.Within D := by
  induction terms generalizing p with
  | nil =>
    cases h
    exact hp
  | cons t terms ih =>
    rw [List.foldlM_cons] at h
    obtain ⟨next, hnext, hrest⟩ := bind_eq_ok h
    exact ih (fun sum s next hs => hf sum s next (List.mem_cons_of_mem _ hs))
      (hf p t next List.mem_cons_self hp hnext) hrest

theorem Within.add (hp : p.Within D) (hq : q.Within D) (h : p.add q = .ok r) : r.Within D :=
  Within.foldlM (fun _ t _ ht hsum hnext => hsum.addTerm (hq t ht) hnext) hp h

theorem Within.neg (hp : p.Within D) : p.neg.Within D := by
  intro t ht
  obtain ⟨s, hs, rfl⟩ := List.mem_map.1 ht
  exact hp s hs

theorem Within.sub (hp : p.Within D) (hq : q.Within D) (h : p.sub q = .ok r) : r.Within D :=
  hp.add hq.neg h

theorem Within.mul (hD : DegreeSet D) (hp : p.Within D) (hq : q.Within D)
    (h : p.mul q = .ok r) : r.Within D := by
  refine Within.foldlM (fun sum s next hs hsum hnext => ?_) within_zero h
  refine Within.foldlM (fun sum t next ht hsum hnext => ?_) hsum hnext
  unfold addProduct at hnext
  split at hnext
  · next hfits =>
    obtain ⟨coef, _, hadd⟩ := bind_eq_ok hnext
    exact hsum.addTerm (hD.add (hp s hs) (hq t ht) hfits) hadd
  · cases hnext

theorem Within.div (hD : DegreeSet D) (hp : p.Within D) (hq : q.Within D)
    (h : p.div q = .ok r) : r.Within D := by
  unfold Laurent.div at h
  split at h
  · cases h
  · next degree coef hentries =>
    obtain ⟨inverse, _, h⟩ := bind_eq_ok h
    split at h
    · next hfits =>
      have hdegree : D degree := hq (degree, coef) (by simp [hentries])
      exact hp.mul hD (within_monomial (hD.neg hdegree hfits) inverse) h
    · cases h
  · cases h

theorem Within.mulRepeated (hD : DegreeSet D) (hp : p.Within D) {n : Nat} (hq : q.Within D)
    (h : p.mulRepeated n q = .ok r) : r.Within D := by
  induction n generalizing q with
  | zero =>
    cases h
    exact hq
  | succ n ih =>
    obtain ⟨product, hproduct, hrest⟩ := bind_eq_ok h
    exact ih (hq.mul hD hp hproduct) hrest

theorem Within.pow (hD : DegreeSet D) (hp : p.Within D) {n : Int} (h : p.pow n = .ok r) :
    r.Within D := by
  have hone : one.Within D := within_monomial hD.zero _
  unfold Laurent.pow at h
  split at h
  · cases h
  split at h
  · obtain ⟨base, hbase, h⟩ := bind_eq_ok h
    exact (hone.div hD hp hbase).mulRepeated hD hone h
  · exact hp.mulRepeated hD hone h

end Laurent

/-! ## Degrees of what a text denotes -/

theorem within_combine {D : Int → Prop} {v w : Except Failure Laurent} {r : Laurent}
    {operation : Laurent → Laurent → Except Failure Laurent}
    (hoperation : ∀ {p q r : Laurent}, p.Within D → q.Within D → operation p q = .ok r →
      r.Within D)
    (hv : ∀ p, v = .ok p → p.Within D) (hw : ∀ p, w = .ok p → p.Within D)
    (h : combine operation v w = .ok r) : r.Within D := by
  obtain ⟨p, hp, h⟩ := bind_eq_ok h
  obtain ⟨q, hq, h⟩ := bind_eq_ok h
  exact hoperation (hv p hp) (hw q hq) h

/-- A derivation keeps to the degrees, if that of the variable is one of them where the variable
occurs. -/
theorem Expression.Derives.within {D : Int → Prop} (hD : DegreeSet D) {x : String} {level : Level}
    {ts : List Token} {v : Except Failure Laurent} (h : Derives x level ts v)
    (hx : .name x ∈ ts → D 1) : ∀ p, v = .ok p → p.Within D := by
  induction h with
  | number q =>
    rintro p ⟨⟩
    exact Laurent.within_monomial hD.zero q
  | unknown =>
    rintro p ⟨⟩
    exact Laurent.within_monomial (hx List.mem_cons_self) _
  | parens _ ih => exact ih fun hmem => hx (by simp [hmem])
  | base _ ih | unsigned _ ih | factor _ ih | summand _ ih => exact ih hx
  | raised _ _ ih | lowered _ _ ih =>
    intro p hp
    obtain ⟨base, hbase, hpow⟩ := bind_eq_ok hp
    exact (ih (fun hmem => hx (by simp [hmem])) base hbase).pow hD hpow
  | opposite _ ih =>
    intro p hp
    obtain ⟨q, hq, rfl⟩ := map_eq_ok hp
    exact (ih (fun hmem => hx (by simp [hmem])) q hq).neg
  | same _ ih => exact ih fun hmem => hx (by simp [hmem])
  | times _ _ ihv ihw | juxtaposed _ _ _ ihv ihw =>
    exact fun p => within_combine (·.mul hD · ·) (ihv fun hmem => hx (by simp [hmem]))
      (ihw fun hmem => hx (by simp [hmem]))
  | quotient _ _ ihv ihw =>
    exact fun p => within_combine (·.div hD · ·) (ihv fun hmem => hx (by simp [hmem]))
      (ihw fun hmem => hx (by simp [hmem]))
  | plus _ _ ihv ihw =>
    exact fun p => within_combine (·.add · ·) (ihv fun hmem => hx (by simp [hmem]))
      (ihw fun hmem => hx (by simp [hmem]))
  | minus _ _ ihv ihw =>
    exact fun p => within_combine (·.sub · ·) (ihv fun hmem => hx (by simp [hmem]))
      (ihw fun hmem => hx (by simp [hmem]))

/-- A degree that fits its word, and is zero unless the variable is a name. -/
def Expressible (x : String) (degree : Int) : Prop :=
  (IsName x ∨ degree = 0) ∧ degreeFits degree = true

theorem degreeSet_expressible (x : String) : DegreeSet (Expressible x) where
  zero := ⟨.inr rfl, rfl⟩
  add := fun hd he hfits => ⟨by rcases hd.1, he.1 with ⟨h | h, h' | h'⟩ <;> simp [*], hfits⟩
  neg := fun hd hfits => ⟨hd.1.imp id (by omega), hfits⟩

theorem Laurent.Within.writable {x : String} {p : Laurent} (h : p.Within (Expressible x)) :
    Writable x p.terms.entries := by
  intro t ht
  obtain ⟨hx, hfits⟩ := h t ht
  simp only [degreeFits, Bool.and_eq_true, decide_eq_true_eq] at hfits
  have hlimit : wordLimit = 9223372036854775807 := rfl
  exact ⟨hx, by omega⟩

/-- **What a text denotes can be expressed.** Its degrees fit their word, and it has none but zero
unless the variable is a name. -/
theorem within_of_ofText {text x : String} {p : Laurent} (h : Laurent.ofText text x = .ok p) :
    p.Within (Expressible x) := by
  obtain ⟨ts, htokens, hderives⟩ := derives_of_ofText h
  exact hderives.within (degreeSet_expressible x)
    (fun hmem => ⟨.inl (isName_of_mem_scan htokens hmem), rfl⟩) p rfl

end PuzzlePlayback.Calculator
