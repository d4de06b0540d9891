/-!
# Blank characters

The characters that separate words and are dropped around an operand, a relation sign or a number
written by a learner: the twenty-five characters with the White_Space property of Unicode.

Trimming drops blanks alone and all of them at either end, and it keeps what is between
(`trim_eq_iff`).
-/

namespace PuzzlePlayback.Text

/-- Is this character white space? -/
def isBlank (c : Char) : Bool :=
  let n := c.toNat
  (9 ≤ n && n ≤ 13) || n == 0x20 || n == 0x85 || n == 0xA0 || n == 0x1680 ||
    (0x2000 ≤ n && n ≤ 0x200A) || n == 0x2028 || n == 0x2029 || n == 0x202F || n == 0x205F ||
    n == 0x3000

/-- Characters without the blanks at either end. -/
def trimBlanks (cs : List Char) : List Char :=
  ((cs.dropWhile isBlank).reverse.dropWhile isBlank).reverse

/-- Text without the blanks at either end. -/
def trim (text : String) : String :=
  String.ofList (trimBlanks text.toList)

/-- Some characters have these in the middle: around them are blanks, and they neither start nor end
with one. -/
structure HasMiddle (cs middle : List Char) : Prop where
  around : ∃ front back, cs = front ++ middle ++ back ∧ ∀ c ∈ front ++ back, isBlank c = true
  first : ∀ c, middle.head? = some c → isBlank c = false
  last : ∀ c, middle.getLast? = some c → isBlank c = false

theorem head?_dropWhile_isBlank (cs : List Char) {c : Char}
    (h : (cs.dropWhile isBlank).head? = some c) : isBlank c = false := by
  have hhead := List.head?_dropWhile_not isBlank cs
  simpa [h] using hhead

theorem hasMiddle_trimBlanks (cs : List Char) : HasMiddle cs (trimBlanks cs) := by
  have hfront := List.takeWhile_append_dropWhile (p := isBlank) (l := cs)
  have hback := List.takeWhile_append_dropWhile (p := isBlank) (l := (cs.dropWhile isBlank).reverse)
  have hrest : cs.dropWhile isBlank = trimBlanks cs ++
      ((cs.dropWhile isBlank).reverse.takeWhile isBlank).reverse := by
    rw [trimBlanks, ← List.reverse_append, hback, List.reverse_reverse]
  refine ⟨⟨cs.takeWhile isBlank,
    ((cs.dropWhile isBlank).reverse.takeWhile isBlank).reverse, ?_, ?_⟩,
    fun c hc => ?_, fun c hc => ?_⟩
  · rw [List.append_assoc, ← hrest, hfront]
  · intro c hc
    rcases List.mem_append.1 hc with hc | hc
    · exact List.all_eq_true.1 List.all_takeWhile c hc
    · exact List.all_eq_true.1 List.all_takeWhile c (List.mem_reverse.1 hc)
  · refine head?_dropWhile_isBlank cs ?_
    rw [hrest, List.head?_append, hc]
    rfl
  · refine head?_dropWhile_isBlank (cs.dropWhile isBlank).reverse ?_
    rwa [trimBlanks, List.getLast?_reverse] at hc

/-- Blanks in front are dropped, up to what is none. -/
theorem dropWhile_isBlank_append {front rest : List Char} (hfront : ∀ c ∈ front, isBlank c = true)
    (hrest : ∀ c, rest.head? = some c → isBlank c = false) :
    (front ++ rest).dropWhile isBlank = rest := by
  rw [List.dropWhile_append_of_pos hfront]
  cases rest with
  | nil => rfl
  | cons c cs => exact List.dropWhile_cons_of_neg (by simp [hrest c rfl])

theorem HasMiddle.eq_trimBlanks {cs middle : List Char} (h : HasMiddle cs middle) :
    trimBlanks cs = middle := by
  obtain ⟨front, back, rfl, hblank⟩ := h.around
  have hfront : ∀ c ∈ front, isBlank c = true := fun c hc => hblank c (List.mem_append_left _ hc)
  have hback : ∀ c ∈ back.reverse, isBlank c = true :=
    fun c hc => hblank c (List.mem_append_right _ (List.mem_reverse.1 hc))
  rw [trimBlanks, List.append_assoc]
  cases middle with
  | nil =>
    -- Without a middle everything is blank.
    have hall := @dropWhile_isBlank_append (front ++ back) [] hblank nofun
    rw [List.append_nil] at hall
    rw [List.nil_append, hall]
    rfl
  | cons c cs =>
    have hstart : ∀ d, (c :: cs ++ back).head? = some d → isBlank d = false := h.first
    have hend : ∀ d, (c :: cs).reverse.head? = some d → isBlank d = false := by
      rw [List.head?_reverse]
      exact h.last
    rw [dropWhile_isBlank_append hfront hstart, List.reverse_append,
      dropWhile_isBlank_append hback hend, List.reverse_reverse]

/-- **What trimming is.** -/
theorem trim_eq_iff {text middle : String} :
    trim text = middle ↔ HasMiddle text.toList middle.toList := by
  rw [trim, ← String.toList_inj, String.toList_ofList]
  constructor
  · intro h
    exact h ▸ hasMiddle_trimBlanks _
  · exact HasMiddle.eq_trimBlanks

end PuzzlePlayback.Text
