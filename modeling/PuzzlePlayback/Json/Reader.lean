import PuzzlePlayback.Json.Number

/-!
# Reading JSON text

A text holds one value with white space around it and nothing after it. Strings may not hold bare
control characters. A string with half a surrogate pair and a container inside `maxDepth` others are
unreadable: they are only checked for their form.
-/

namespace PuzzlePlayback.Json

/-- How deep arrays and objects may nest. -/
def maxDepth : Nat := 127

/-- Blank, tab and the two line ends. -/
def isSpace (c : Char) : Bool := c == ' ' || c == '\n' || c == '\r' || c == '\t'

def skipSpace (cs : List Char) : List Char := cs.dropWhile isSpace

/-! ## Strings -/

/-- The value of a hexadecimal digit. -/
def hexDigit? (c : Char) : Option Nat :=
  if '0' ≤ c && c ≤ '9' then some (c.toNat - '0'.toNat)
  else if 'a' ≤ c && c ≤ 'f' then some (c.toNat - 'a'.toNat + 10)
  else if 'A' ≤ c && c ≤ 'F' then some (c.toNat - 'A'.toNat + 10)
  else none

/-- The value of four hexadecimal digits. -/
def hexWord? (a b c d : Char) : Option Nat := do
  return (((← hexDigit? a) * 16 + (← hexDigit? b)) * 16 + (← hexDigit? c)) * 16 + (← hexDigit? d)

/-- The character of a short escape. -/
def escaped? : Char → Option Char
  | '"' => some '"'
  | '\\' => some '\\'
  | '/' => some '/'
  | 'b' => some '\x08'
  | 'f' => some '\x0c'
  | 'n' => some '\n'
  | 'r' => some '\r'
  | 't' => some '\t'
  | _ => none

def isHighSurrogate (n : Nat) : Bool := 0xD800 ≤ n && n ≤ 0xDBFF

def isLowSurrogate (n : Nat) : Bool := 0xDC00 ≤ n && n ≤ 0xDFFF

/-- Read the rest of a string after its opening quote, as the numbers of its characters; a `\u`
escape counts for the number it gives. `seen` holds the numbers so far, the last one first. -/
def stringUnits (seen : List Nat) : List Char → Option (List Nat × List Char)
  | [] => none
  | '"' :: cs => some (seen.reverse, cs)
  | '\\' :: 'u' :: a :: b :: c :: d :: cs => do stringUnits ((← hexWord? a b c d) :: seen) cs
  | '\\' :: c :: cs => do stringUnits ((← escaped? c).toNat :: seen) cs
  | c :: cs => if c.toNat < 0x20 then none else stringUnits (c.toNat :: seen) cs

/-- The characters with these numbers. Two surrogates make one character together, and one alone
makes none. `seen` holds the characters so far, the last one first. -/
def joinUnits (seen : List Char) : List Nat → Option (List Char)
  | [] => some seen.reverse
  | [n] =>
    if isHighSurrogate n || isLowSurrogate n then none else some (Char.ofNat n :: seen).reverse
  | m :: n :: ns =>
    if isHighSurrogate m then
      if isLowSurrogate n then
        joinUnits (Char.ofNat (0x10000 + (m - 0xD800) * 0x400 + (n - 0xDC00)) :: seen) ns
      else none
    else if isLowSurrogate m then none
    else joinUnits (Char.ofNat m :: seen) (n :: ns)

/-- Read the rest of a string after its opening quote; `none` inside stands for a string that has
no value. -/
def stringTail (cs : List Char) : Option (Option String × List Char) :=
  (stringUnits [] cs).map fun read => ((joinUnits [] read.1).map String.ofList, read.2)

/-! ## Values without parts -/

/-- Is the text `word` at the front? Returns what follows it. -/
def keyword (word : String) (cs : List Char) : Option (List Char) :=
  if word.toList.isPrefixOf cs then some (cs.drop word.length) else none

/-- Read a value without parts. -/
def scalar : List Char → Option (Json × List Char)
  | [] => none
  | 'n' :: cs => (keyword "ull" cs).map (Json.null, ·)
  | 't' :: cs => (keyword "rue" cs).map (Json.bool true, ·)
  | 'f' :: cs => (keyword "alse" cs).map (Json.bool false, ·)
  | '"' :: cs => (stringTail cs).map fun read =>
    (match read.1 with
      | some text => .string text
      | none => .unreadable, read.2)
  | c :: cs => if c == '-' || c.isDigit then number (c :: cs) else none

/-! ## Skipping -/

/-- The two kinds of containers. -/
inductive Container
  | array
  | object
deriving DecidableEq

/-- What comes next in a container that is skipped. -/
inductive Turn
  /-- An item, or if `first` the end of an array. -/
  | item (first : Bool)
  /-- The name of a field, or if `first` the end of an object. -/
  | name (first : Bool)
  | colon
  /-- A comma, or the end of the container. -/
  | comma
deriving DecidableEq

/-- What comes after a comma. -/
def Container.next : Container → Turn
  | .array => .item false
  | .object => .name false

/-- Pass over one mark, name or scalar. `opened` holds the open containers, the innermost one
first. -/
def skipOne (opened : List Container) (turn : Turn) (cs : List Char) :
    Option (List Container × Turn × List Char) :=
  match turn, opened, cs with
  | .item true, .array :: opened, ']' :: cs => some (opened, .comma, cs)
  | .comma, .array :: opened, ']' :: cs => some (opened, .comma, cs)
  | .name true, .object :: opened, '\x7d' :: cs => some (opened, .comma, cs)
  | .comma, .object :: opened, '\x7d' :: cs => some (opened, .comma, cs)
  | .comma, container :: opened, ',' :: cs => some (container :: opened, container.next, cs)
  | .colon, opened, ':' :: cs => some (opened, .item false, cs)
  | .name _, opened, '"' :: cs => (stringTail cs).map fun read => (opened, .colon, read.2)
  | .item _, opened, '[' :: cs => some (.array :: opened, .item true, cs)
  | .item _, opened, '\x7b' :: cs => some (.object :: opened, .name true, cs)
  | .item _, opened, cs => (scalar cs).map fun read => (opened, .comma, read.2)
  | _, _, _ => none

/-- Pass over the open containers. Every turn uses up a character, so `fuel` need not exceed the
length of the text. -/
def skipOpened : Nat → List Container → Turn → List Char → Option (List Char)
  | 0, _, _, _ => none
  | fuel + 1, opened, turn, cs => do
    let (opened, turn, cs) ← skipOne opened turn (skipSpace cs)
    if opened.isEmpty then some cs else skipOpened fuel opened turn cs

/-- Check the form of a value of any depth, and return what follows it. -/
def skip (cs : List Char) : Option (List Char) := skipOpened cs.length [] (.item false) cs

/-! ## Values -/

/-- A value and the text after it, which is shorter than `n`. -/
abbrev Reading (α : Type) (n : Nat) := Option (α × { rest : List Char // rest.length < n })

/-- Keep what was read if it used up some of the text. -/
def shorter {α : Type} (n : Nat) (read : Option (α × List Char)) : Reading α n :=
  match read with
  | some (value, rest) => if h : rest.length < n then some (value, ⟨rest, h⟩) else none
  | none => none

theorem length_skipSpace_le (cs : List Char) : (skipSpace cs).length ≤ cs.length :=
  (List.dropWhile_sublist isSpace).length_le

mutual

/-- Read a value from a text no longer than `n`; `depth` more containers may be opened, and one
beyond that is skipped. -/
def value (depth : Nat) (n : Nat) (cs : List Char) (h : cs.length ≤ n) : Reading Json n :=
  match hcs : skipSpace cs with
  | '[' :: rest =>
    have hrest : rest.length < cs.length := by
      have := length_skipSpace_le cs
      rw [hcs] at this
      exact this
    match depth with
    | 0 => shorter n ((skip cs).map (Json.unreadable, ·))
    | depth + 1 =>
      match skipSpace rest with
      | ']' :: rest => shorter n (some (.array [], rest))
      | _ => items depth n [] rest (Nat.le_trans (Nat.le_of_lt hrest) h)
  | '\x7b' :: rest =>
    have hrest : rest.length < cs.length := by
      have := length_skipSpace_le cs
      rw [hcs] at this
      exact this
    match depth with
    | 0 => shorter n ((skip cs).map (Json.unreadable, ·))
    | depth + 1 =>
      match skipSpace rest with
      | '\x7d' :: rest => shorter n (some (.object [], rest))
      | _ => fields depth n (some []) rest (Nat.le_trans (Nat.le_of_lt hrest) h)
  | cs => shorter n (scalar cs)
termination_by (cs.length, 1)

/-- Read the items of an array that are still to come; `seen` holds the earlier ones, the last
one first. -/
def items (depth : Nat) (n : Nat) (seen : List Json) (cs : List Char) (h : cs.length ≤ n) :
    Reading Json n :=
  match value depth cs.length cs (Nat.le_refl _) with
  | none => none
  | some (item, ⟨rest, hrest⟩) =>
    have hlt : (skipSpace rest).length < cs.length :=
      Nat.lt_of_le_of_lt (length_skipSpace_le rest) hrest
    match hspace : skipSpace rest with
    | ',' :: rest =>
      items depth n (item :: seen) rest (by
        rw [hspace] at hlt
        exact Nat.le_trans (Nat.le_of_lt (Nat.lt_of_succ_lt hlt)) h)
    | ']' :: rest => shorter n (some (.array (item :: seen).reverse, rest))
    | _ => none
termination_by (cs.length, 2)
decreasing_by
  · exact Prod.Lex.right _ (by omega)
  · rw [hspace] at hlt
    exact Prod.Lex.left _ _ (Nat.lt_of_succ_lt hlt)

/-- Read the fields of an object that are still to come. There are no earlier ones to keep once a
name has no value. -/
def fields (depth : Nat) (n : Nat) (seen : Option (List (String × Json))) (cs : List Char)
    (h : cs.length ≤ n) : Reading Json n :=
  match skipSpace cs with
  | '"' :: rest =>
    match shorter cs.length (stringTail rest) with
    | none => none
    | some (name, ⟨rest, hname⟩) =>
      have hcolon : (skipSpace rest).length < cs.length :=
        Nat.lt_of_le_of_lt (length_skipSpace_le rest) hname
      match hspace : skipSpace rest with
      | ':' :: rest =>
        have hrest : rest.length < cs.length := by
          rw [hspace] at hcolon
          exact Nat.lt_of_succ_lt hcolon
        match value depth rest.length rest (Nat.le_refl _) with
        | none => none
        | some (item, ⟨rest', hvalue⟩) =>
          have hlt : (skipSpace rest').length < cs.length :=
            Nat.lt_trans (Nat.lt_of_le_of_lt (length_skipSpace_le rest') hvalue) hrest
          let seen := do return (← name, item) :: (← seen)
          match hnext : skipSpace rest' with
          | ',' :: rest =>
            fields depth n seen rest (by
              rw [hnext] at hlt
              exact Nat.le_trans (Nat.le_of_lt (Nat.lt_of_succ_lt hlt)) h)
          | '\x7d' :: rest =>
            shorter n (some (match seen with
              | some seen => .object seen.reverse
              | none => .unreadable, rest))
          | _ => none
      | _ => none
  | _ => none
termination_by (cs.length, 2)
decreasing_by
  · exact Prod.Lex.left _ _ hrest
  · rw [hnext] at hlt
    exact Prod.Lex.left _ _ (Nat.lt_of_succ_lt hlt)

end

/-- Read a text that holds one value. -/
def read (text : String) : Option Json :=
  let cs := text.toList
  match value maxDepth cs.length cs (Nat.le_refl _) with
  | some (json, rest) => if (skipSpace rest.1).isEmpty then some json else none
  | none => none

end PuzzlePlayback.Json
