import Mathlib.Data.List.Induction

/-!
# The latest answer

Much of what a run is left with was said by its latest step of some kind: the value of a variable
by the last write to it, the colour of a pen by the last change of colours, the program by the last
compilation. `latest` asks the items of a list a question and keeps the last answer.

* `foldl_eq_latest` — a fold that an answer overwrites is left with the latest one.
* `latest_filter` — items that do not answer can be left out.
-/

namespace PuzzlePlayback

variable {α β γ σ : Type} {ask : β → Option α} {items : List β}

/-- The last answer that the items of a list give. -/
def latest (ask : β → Option α) (items : List β) : Option α := (items.filterMap ask).getLast?

theorem latest_snoc (ask : β → Option α) (items : List β) (item : β) :
    latest ask (items ++ [item]) = (ask item).or (latest ask items) := by
  rw [latest, List.filterMap_append, List.getLast?_append, latest]
  cases h : ask item <;> simp [h]

/-- A list that ends in an item is split at that item or before it. -/
theorem split_snoc {item mark : β} {before after : List β} :
    items ++ [item] = before ++ mark :: after ↔
      before = items ∧ mark = item ∧ after = [] ∨
        ∃ rest, after = rest ++ [item] ∧ items = before ++ mark :: rest := by
  constructor
  · intro h
    rcases List.eq_nil_or_concat after with rfl | ⟨rest, last, rfl⟩
    · obtain ⟨hitems, hitem⟩ := List.append_inj' h rfl
      exact .inl ⟨hitems.symm, (List.cons.inj hitem).1.symm, rfl⟩
    · have hsnoc : items ++ [item] = before ++ mark :: rest ++ [last] := by simpa using h
      obtain ⟨hitems, hitem⟩ := List.append_inj' hsnoc rfl
      obtain rfl := (List.cons.inj hitem).1
      exact .inr ⟨rest, by simp, hitems⟩
  · rintro (⟨rfl, rfl, rfl⟩ | ⟨rest, rfl, rfl⟩)
    · rfl
    · simp

/-- If an answer overwrites what is seen of a state, and nothing else touches it, then the latest
answer is seen at the end of a fold, or what was seen at first. -/
theorem foldl_eq_latest {step : σ → β → σ} (view : σ → γ) {write : α → γ}
    (hstep : ∀ state item, view (step state item) = (ask item).elim (view state) write)
    (state : σ) : view (items.foldl step state) = (latest ask items).elim (view state) write := by
  induction items using List.reverseRecOn with
  | nil => rfl
  | append_singleton items item ih =>
    rw [List.foldl_append, List.foldl_cons, List.foldl_nil, hstep, ih, latest_snoc]
    cases ask item <;> rfl

/-- Items that do not answer can be left out. -/
theorem latest_filter {keep : β → Bool} (h : ∀ item ∈ items, keep item = false → ask item = none) :
    latest ask (items.filter keep) = latest ask items := by
  unfold latest
  congr 1
  induction items with
  | nil => rfl
  | cons item rest ih =>
    have hrest := ih fun other hother => h other (List.mem_cons_of_mem _ hother)
    cases hkeep : keep item with
    | true => rw [List.filter_cons_of_pos hkeep, List.filterMap_cons, List.filterMap_cons, hrest]
    | false =>
      rw [List.filter_cons_of_neg (by simp [hkeep]), hrest,
        List.filterMap_cons_none (h item List.mem_cons_self hkeep)]

end PuzzlePlayback
