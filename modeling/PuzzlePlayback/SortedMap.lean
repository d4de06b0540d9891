/-!
# Sorted maps

Finite maps kept as an association list in strictly increasing order of the keys. The order is
part of the type, so two maps with the same entries are equal, and reading the entries out always
goes from the least key to the greatest.

Looking up finds exactly the entries (`get?_eq_some_iff`), and one lemma for each operation says
what it does to the lookups: `get?_insert`, `get?_erase`, `get?_mapValues`. That is all that users
of a map need to know.
-/

namespace PuzzlePlayback

/-- An association list with strictly increasing keys. -/
structure SortedMap (κ : Type) (α : Type) [Ord κ] where
  entries : List (κ × α)
  sorted : entries.Pairwise fun a b => compare a.1 b.1 = .lt
deriving DecidableEq

namespace SortedMap

variable {κ α : Type} [Ord κ]

/-! ## Entries -/

/-- The value stored under `key`. -/
def lookup (key : κ) : List (κ × α) → Option α
  | [] => none
  | entry :: rest => if compare key entry.1 = .eq then some entry.2 else lookup key rest

/-- Store `value` under `key`, in place of an entry with that key or before the first greater
one. -/
def insertEntry (key : κ) (value : α) : List (κ × α) → List (κ × α)
  | [] => [(key, value)]
  | entry :: rest =>
    match compare key entry.1 with
    | .lt => (key, value) :: entry :: rest
    | .eq => (key, value) :: rest
    | .gt => entry :: insertEntry key value rest

theorem mem_insertEntry {key : κ} {value : α} {entries : List (κ × α)} {e : κ × α}
    (h : e ∈ insertEntry key value entries) : e = (key, value) ∨ e ∈ entries := by
  induction entries with
  | nil => simpa [insertEntry] using h
  | cons entry rest ih =>
    unfold insertEntry at h
    split at h
    · simpa using h
    · rcases List.mem_cons.1 h with h | h
      · exact Or.inl h
      · exact Or.inr (List.mem_cons_of_mem _ h)
    · rcases List.mem_cons.1 h with h | h
      · exact Or.inr (h ▸ List.mem_cons_self)
      · exact (ih h).imp id (List.mem_cons_of_mem _)

theorem pairwise_insertEntry [Std.TransOrd κ] [Std.LawfulEqOrd κ] {key : κ} {value : α}
    {entries : List (κ × α)} (h : entries.Pairwise fun a b => compare a.1 b.1 = .lt) :
    (insertEntry key value entries).Pairwise fun a b => compare a.1 b.1 = .lt := by
  induction entries with
  | nil => simp [insertEntry]
  | cons entry rest ih =>
    obtain ⟨hhead, hrest⟩ := List.pairwise_cons.1 h
    unfold insertEntry
    split
    · rename_i hlt
      refine List.pairwise_cons.2 ⟨fun e he => ?_, h⟩
      rcases List.mem_cons.1 he with rfl | he
      · exact hlt
      · exact Std.TransCmp.lt_trans hlt (hhead e he)
    · rename_i heq
      refine List.pairwise_cons.2 ⟨fun e he => ?_, hrest⟩
      rw [Std.LawfulEqCmp.eq_of_compare heq]
      exact hhead e he
    · rename_i hgt
      refine List.pairwise_cons.2 ⟨fun e he => ?_, ih hrest⟩
      rcases mem_insertEntry he with rfl | he
      · exact Std.OrientedCmp.gt_iff_lt.1 hgt
      · exact hhead e he

/-- A key beyond all others goes to the end. -/
theorem insertEntry_of_lt [Std.TransOrd κ] [Std.LawfulEqOrd κ] {key : κ} {value : α}
    {entries : List (κ × α)} (h : ∀ e ∈ entries, compare e.1 key = .lt) :
    insertEntry key value entries = entries ++ [(key, value)] := by
  induction entries with
  | nil => rfl
  | cons entry rest ih =>
    have hgt : compare key entry.1 = .gt := Std.OrientedCmp.gt_iff_lt.2 (h entry List.mem_cons_self)
    rw [insertEntry, hgt, List.cons_append]
    dsimp only
    rw [ih fun e he => h e (List.mem_cons_of_mem _ he)]

theorem lookup_eq_some_iff [Std.TransOrd κ] [Std.LawfulEqOrd κ] {entries : List (κ × α)}
    (sorted : entries.Pairwise fun a b => compare a.1 b.1 = .lt) {key : κ} {value : α} :
    lookup key entries = some value ↔ (key, value) ∈ entries := by
  induction entries with
  | nil => simp [lookup]
  | cons entry rest ih =>
    obtain ⟨hhead, hrest⟩ := List.pairwise_cons.1 sorted
    by_cases h : compare key entry.1 = .eq
    · cases Std.LawfulEqCmp.eq_of_compare h
      have hnot : (entry.1, value) ∉ rest := fun hmem => by
        have := hhead _ hmem
        simp at this
      simp [lookup, Prod.ext_iff, hnot, eq_comm]
    · have hne : (key, value) ≠ entry := fun he => h (by rw [← he]; exact Std.ReflCmp.compare_self)
      simp [lookup, h, hne, ih hrest]

/-! ## Maps -/

/-- The map without entries. -/
def empty : SortedMap κ α := ⟨[], List.Pairwise.nil⟩

instance : Inhabited (SortedMap κ α) := ⟨empty⟩

/-- The value stored under a key. -/
def get? (map : SortedMap κ α) (key : κ) : Option α := lookup key map.entries

/-- Store a value under a key; an older value under that key is forgotten. -/
def insert [Std.TransOrd κ] [Std.LawfulEqOrd κ] (map : SortedMap κ α) (key : κ) (value : α) :
    SortedMap κ α :=
  ⟨insertEntry key value map.entries, pairwise_insertEntry map.sorted⟩

/-- Keep the entries that pass a test. -/
def filter (map : SortedMap κ α) (keep : κ × α → Bool) : SortedMap κ α :=
  ⟨map.entries.filter keep, map.sorted.sublist List.filter_sublist⟩

/-- Forget the value stored under a key. -/
def erase (map : SortedMap κ α) (key : κ) : SortedMap κ α :=
  map.filter fun entry => compare key entry.1 != .eq

/-- Replace every value, key by key. -/
def mapValues {β : Type} (map : SortedMap κ α) (f : α → β) : SortedMap κ β :=
  ⟨map.entries.map fun entry => (entry.1, f entry.2), List.pairwise_map.2 map.sorted⟩

/-- The map that holds the entries of a list, a later entry for a key winning over an earlier. -/
def ofList [Std.TransOrd κ] [Std.LawfulEqOrd κ] (entries : List (κ × α)) : SortedMap κ α :=
  entries.foldl (fun map entry => map.insert entry.1 entry.2) empty

@[ext]
theorem ext {a b : SortedMap κ α} (h : a.entries = b.entries) : a = b := by
  cases a; cases b; cases h; rfl

/-- The map that holds the entries of a map is the map. -/
theorem ofList_entries [Std.TransOrd κ] [Std.LawfulEqOrd κ] (map : SortedMap κ α) :
    ofList map.entries = map := by
  suffices hfold : ∀ (rest : List (κ × α)) (first : SortedMap κ α),
      (first.entries ++ rest).Pairwise (fun a b => compare a.1 b.1 = .lt) →
        (rest.foldl (fun map entry => map.insert entry.1 entry.2) first).entries =
          first.entries ++ rest from
    ext (hfold map.entries empty map.sorted)
  intro rest
  induction rest with
  | nil => exact fun first _ => (List.append_nil _).symm
  | cons entry rest ih =>
    intro first hsorted
    have hlast : (first.insert entry.1 entry.2).entries = first.entries ++ [entry] :=
      insertEntry_of_lt fun e he =>
        (List.pairwise_append.1 hsorted).2.2 e he entry List.mem_cons_self
    rw [List.foldl_cons, ih, hlast, List.append_assoc, List.singleton_append]
    rwa [hlast, List.append_assoc, List.singleton_append]

/-! ## Lookups -/

/-- Looking up finds exactly the entries. -/
theorem get?_eq_some_iff [Std.TransOrd κ] [Std.LawfulEqOrd κ] (map : SortedMap κ α) {key : κ}
    {value : α} : map.get? key = some value ↔ (key, value) ∈ map.entries :=
  lookup_eq_some_iff map.sorted

/-- No key occurs twice. -/
theorem nodup_keys [Std.TransOrd κ] [Std.LawfulEqOrd κ] (map : SortedMap κ α) :
    (map.entries.map Prod.fst).Nodup := by
  refine List.pairwise_map.2 (map.sorted.imp fun {a b} hlt heq => ?_)
  have hself : compare b.1 b.1 = .eq := Std.ReflCmp.compare_self
  rw [heq, hself] at hlt
  cases hlt

/-- Maps with the same lookups are equal. -/
theorem ext_get? [Std.TransOrd κ] [Std.LawfulEqOrd κ] {a b : SortedMap κ α}
    (h : ∀ key, a.get? key = b.get? key) : a = b := by
  have hmem : ∀ e, e ∈ a.entries ↔ e ∈ b.entries := fun e => by
    rw [← a.get?_eq_some_iff, ← b.get?_eq_some_iff, h]
  have hnodup : ∀ map : SortedMap κ α, map.entries.Nodup := fun map =>
    List.Pairwise.of_map Prod.fst (fun x y hne heq => hne (by rw [heq])) map.nodup_keys
  refine ext (List.Perm.eq_of_pairwise (fun x y _ _ hlt hgt => ?_) a.sorted b.sorted
    ((List.perm_ext_iff_of_nodup (hnodup a) (hnodup b)).2 hmem))
  have hboth : compare x.1 y.1 = .gt := Std.OrientedCmp.gt_iff_lt.2 hgt
  rw [hlt] at hboth
  cases hboth

theorem get?_insert [Std.TransOrd κ] [Std.LawfulEqOrd κ] (map : SortedMap κ α) (key other : κ)
    (value : α) : (map.insert key value).get? other =
      if compare other key = .eq then some value else map.get? other := by
  show lookup other (insertEntry key value map.entries) = _
  unfold get?
  generalize map.entries = entries
  induction entries with
  | nil => simp [insertEntry, lookup]
  | cons entry rest ih =>
    unfold insertEntry
    split
    · simp [lookup]
    · rename_i heq
      cases Std.LawfulEqCmp.eq_of_compare heq
      by_cases h : compare other entry.1 = .eq <;> simp [lookup, h]
    · rename_i hgt
      simp only [lookup, ih]
      by_cases h : compare other entry.1 = .eq
      · have hne : compare other key ≠ .eq := fun hk => by
          cases Std.LawfulEqCmp.eq_of_compare hk
          simp [h] at hgt
        simp [h, hne]
      · simp [h]

theorem get?_erase [Std.TransOrd κ] [Std.LawfulEqOrd κ] (map : SortedMap κ α) (key other : κ) :
    (map.erase key).get? other = if compare other key = .eq then none else map.get? other := by
  show lookup other (map.entries.filter _) = _
  unfold get?
  generalize map.entries = entries
  induction entries with
  | nil => simp [lookup]
  | cons entry rest ih =>
    by_cases h : compare key entry.1 = .eq
    · cases Std.LawfulEqCmp.eq_of_compare h
      by_cases ho : compare other entry.1 = .eq <;> simp_all [lookup]
    · by_cases ho : compare other key = .eq
      · cases Std.LawfulEqCmp.eq_of_compare ho
        simp_all [lookup]
      · simp_all [lookup]

theorem get?_mapValues {β : Type} (map : SortedMap κ α) (f : α → β) (key : κ) :
    (map.mapValues f).get? key = (map.get? key).map f := by
  show lookup key (map.entries.map _) = (lookup key map.entries).map f
  generalize map.entries = entries
  induction entries with
  | nil => rfl
  | cons entry rest ih =>
    by_cases h : compare key entry.1 = .eq <;> simp [lookup, h, ih]

end SortedMap

end PuzzlePlayback
