import Mathlib.Data.Option.Basic
import PuzzlePlayback.Json.Decode

/-!
# Reading back what was written

A writer and a reader of a format agree if reading what was written gives the value again, exactly
if the value fits the format: `ReadsBack`. The other case is part of the law, so that what does not
fit is known to be read as nothing.

Lists and optional values carry the law over (`ReadsBack.list`, `ReadsBack.option`). A record is
read field by field: the slots of its fields are found in any object that holds them, as long as no
name occurs twice (`slots_of_fields`), and this is why the law for records speaks of such objects
(`RecordReadsBack`). Readers refuse objects with an unreadable part, and nothing that is written has
one.
-/

namespace PuzzlePlayback.Json

/-! ## Reading back -/

/-- Reading what was written gives the value if it fits, and nothing if it does not. -/
def ReadsBack {α : Type} (write : α → Json) (read : Json → Option α) (fits : α → Bool) : Prop :=
  ∀ a, read (write a) = if fits a then some a else none

theorem readsBack_float : ReadsBack ofFloat asFloat? Float.isFinite := by
  intro x
  unfold ofFloat
  split <;> simp_all [asFloat?]

theorem readsBack_string : ReadsBack .string asString? fun _ => true := fun _ => rfl

theorem readsBack_bool : ReadsBack .bool asBool? fun _ => true := fun _ => rfl

theorem readsBack_int32 : ReadsBack (fun n : Int32 => .int n.toInt) asInt32? fun _ => true := by
  intro n
  have hrange : Int32.minValue.toInt ≤ n.toInt ∧ n.toInt ≤ Int32.maxValue.toInt :=
    ⟨n.minValue_le_toInt, n.toInt_le⟩
  rw [asInt32?, asInt?, if_pos hrange, if_pos rfl, Option.map_some, Int32.ofInt_toInt]

variable {α : Type} {write : α → Json} {read : Json → Option α} {fits : α → Bool}

/-- Items are read back one by one, in whatever form each of them was written. -/
theorem mapM_fits {β : Type} {write : α → β} {read : β → Option α}
    (h : ∀ a, read (write a) = if fits a then some a else none) (items : List α) :
    (items.map write).mapM read = if items.all fits then some items else none := by
  induction items with
  | nil => rfl
  | cons a items ih =>
    rw [List.map_cons, List.mapM_cons, h a, ih, List.all_cons]
    cases fits a <;> cases items.all fits <;> rfl

theorem ReadsBack.list (h : ReadsBack write read fits) :
    ReadsBack (ofList write) (asList? read) fun items => items.all fits := mapM_fits h

/-- A value that is never written as null may be absent. -/
theorem ReadsBack.option (h : ReadsBack write read fits) (hnull : ∀ a, write a ≠ .null) :
    ReadsBack (ofOption write) (asOption? read) fun o => o.all fits := by
  intro o
  cases o with
  | none => rfl
  | some a =>
    have hread : asOption? read (write a) = (read (write a)).map some := by
      unfold asOption?
      split
      · next hwrite => exact absurd hwrite (hnull a)
      · rfl
    show asOption? read (write a) = if fits a then some (some a) else none
    rw [hread, h a]
    cases fits a <;> rfl

/-- What is read after a part is read if the part fits. -/
theorem bind_fits {β : Type} (p : Bool) (a : α) (next : α → Option β) :
    (if p then some a else none).bind next = if p then next a else none := by
  cases p <;> rfl

/-! ## What is written is readable -/

theorem isReadable_ofFloat (x : Float) : (ofFloat x).isReadable = true := by
  unfold ofFloat
  split <;> rfl

theorem isReadable_ofList (h : ∀ a, (write a).isReadable = true) (items : List α) :
    (ofList write items).isReadable = true := by
  show itemsReadable (items.map write) = true
  induction items with
  | nil => rfl
  | cons a items ih => rw [List.map_cons, itemsReadable, h a, ih, Bool.and_self]

theorem isReadable_ofOption (h : ∀ a, (write a).isReadable = true) (o : Option α) :
    (ofOption write o).isReadable = true := by
  cases o with
  | none => rfl
  | some a => exact h a

theorem fieldsReadable_append (first rest : List (String × Json)) :
    fieldsReadable (first ++ rest) = (fieldsReadable first && fieldsReadable rest) := by
  induction first with
  | nil => rfl
  | cons field first ih => rw [List.cons_append, fieldsReadable, ih, fieldsReadable, Bool.and_assoc]

/-! ## Fields by name -/

variable {fields whole : List (String × Json)} {name : String} {value : Json}

theorem fieldsNamed_cons (field : String × Json) :
    fieldsNamed (field :: fields) name =
      if field.1 = name then field.2 :: fieldsNamed fields name else fieldsNamed fields name := by
  unfold fieldsNamed
  by_cases h : field.1 = name <;> simp [h]

theorem fieldsNamed_of_not_mem (h : name ∉ fields.map Prod.fst) : fieldsNamed fields name = [] := by
  induction fields with
  | nil => rfl
  | cons field rest ih =>
    rw [List.map_cons, List.mem_cons, not_or] at h
    rw [fieldsNamed_cons, if_neg (Ne.symm h.1), ih h.2]

theorem fieldsNamed_of_mem (hnodup : (fields.map Prod.fst).Nodup) (h : (name, value) ∈ fields) :
    fieldsNamed fields name = [value] := by
  induction fields with
  | nil => cases h
  | cons field rest ih =>
    obtain ⟨hfirst, hrest⟩ := List.nodup_cons.1 hnodup
    rcases List.mem_cons.1 h with rfl | h
    · rw [fieldsNamed_cons, if_pos rfl, fieldsNamed_of_not_mem hfirst]
    · have hne : field.1 ≠ name := fun heq => hfirst (heq ▸ List.mem_map_of_mem h)
      rw [fieldsNamed_cons, if_neg hne, ih hrest h]

/-- A name that does not occur. -/
theorem uniqueField_of_not_mem (h : name ∉ fields.map Prod.fst) :
    uniqueField fields name = some none := by
  rw [uniqueField, fieldsNamed_of_not_mem h]

/-- A name that occurs where no name occurs twice. -/
theorem uniqueField_of_mem (hnodup : (fields.map Prod.fst).Nodup) (h : (name, value) ∈ fields) :
    uniqueField fields name = some (some value) := by
  rw [uniqueField, fieldsNamed_of_mem hnodup h]

theorem required_of_mem (hnodup : (fields.map Prod.fst).Nodup) (h : (name, value) ∈ fields) :
    (uniqueField fields name).bind (required read) = read value := by
  rw [uniqueField_of_mem hnodup h]
  rfl

/-- Asking an object for some of its own names gives the values in the order of the names. -/
theorem slots_of_fields (hnodup : (whole.map Prod.fst).Nodup) (h : fields ⊆ whole) :
    (Json.object whole).slots (fields.map Prod.fst) =
      some (fields.map fun field => some field.2) := by
  show (fields.map Prod.fst).mapM (uniqueField whole) = _
  induction fields with
  | nil => rfl
  | cons field rest ih =>
    obtain ⟨hfirst, hrest⟩ := List.cons_subset.1 h
    rw [List.map_cons, List.mapM_cons, uniqueField_of_mem hnodup hfirst, ih hrest]
    rfl

/-- A record is read back from every object with its fields, other fields being ignored. -/
def RecordReadsBack {α : Type} (fieldsOf : α → List (String × Json)) (read : Json → Option α)
    (fits : α → Bool) : Prop :=
  ∀ a (whole : List (String × Json)), (whole.map Prod.fst).Nodup → fieldsOf a ⊆ whole →
    read (.object whole) = if fits a then some a else none

end PuzzlePlayback.Json
