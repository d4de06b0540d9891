import PuzzlePlayback.Proofs.Latest
import PuzzlePlayback.Proofs.PlainNumbers
import PuzzlePlayback.Replay
import PuzzlePlayback.World.Sandbox

/-!
# The last write wins

What is in memory after some actions can be read off the actions. A variable that the learner may
not write keeps what the puzzle gives it. Any other variable holds what was written to it last, or
what the puzzle gives it. The console has a line for each write, also a refused one, and for each
print. What the line of a write shows is said without the writer of the console (`Shows`).

So refused writes leave nothing behind but their lines, and no target looks at the console: they
can be left out (`last_write_wins`).
-/

namespace PuzzlePlayback

theorem Puzzle.protects_iff (puzzle : Puzzle) (var : String) :
    puzzle.protects var = true ↔ var ∈ puzzle.lockedVars ∨ var ∈ puzzle.hiddenVars := by
  rw [protects, Bool.or_eq_true, List.contains_iff_mem, List.contains_iff_mem]

/-! ## The text of a value -/

namespace Value

/-- How a value is written: a number as a number, a text as it is, and a list in brackets with
commas between the items. -/
inductive Shows : Value → String → Prop
  | number {n : Float} {text : String} : Decimal.NumberText n text → Shows (.number n) text
  | text (s : String) : Shows (.text s) s
  | list {items : List Value} {texts : List String} : List.Forall₂ Shows items texts →
      Shows (.list items) ("[" ++ ", ".intercalate texts ++ "]")

mutual

theorem shows_render (value : Value) : Shows value value.render :=
  match value with
  | .number n => .number (Decimal.numberText_render n)
  | .text s => .text s
  | .list items => .list (shows_renderAll items)

theorem shows_renderAll (items : List Value) : List.Forall₂ Shows items (renderAll items) :=
  match items with
  | [] => .nil
  | item :: rest => .cons (shows_render item) (shows_renderAll rest)

end

end Value

namespace Sandbox

/-! ## What an action says -/

/-- What an action writes to a variable, allowed or not. -/
def valueFor (var : String) (action : Action) : Option Value :=
  match action.command with
  | .set name val => if name = var then some val else none
  | _ => none

/-- The line that an action leaves on the console. -/
def lineOf (puzzle : Puzzle) (action : Action) : Option String :=
  match action.command with
  | .set var val =>
    if puzzle.protects var then some ("Error: variable '" ++ var ++ "' is locked")
    else some (var ++ " = " ++ val.render)
  | .print msg => some msg
  | _ => none

/-- The action puts a line on the console: it writes to a variable or prints. -/
def speaks (action : Action) : Bool :=
  match action.command with
  | .set _ _ => true
  | .print _ => true
  | _ => false

/-- The line that an action puts on the console, said without the writer of values. -/
inductive Leaves (puzzle : Puzzle) : Action → String → Prop
  | refused {id : Option String} {var : String} {val : Value} :
      var ∈ puzzle.hiddenVars ∨ var ∈ puzzle.lockedVars →
      Leaves puzzle ⟨id, .set var val⟩ ("Error: variable '" ++ var ++ "' is locked")
  | written {id : Option String} {var : String} {val : Value} {text : String} :
      var ∉ puzzle.hiddenVars → var ∉ puzzle.lockedVars → val.Shows text →
      Leaves puzzle ⟨id, .set var val⟩ (var ++ " = " ++ text)
  | printed {id : Option String} {msg : String} : Leaves puzzle ⟨id, .print msg⟩ msg

/-- The lines are those of the actions that put one on the console, one for each. -/
theorem leaves_lineOf (puzzle : Puzzle) (actions : List Action) :
    List.Forall₂ (Leaves puzzle) (actions.filter speaks) (actions.filterMap (lineOf puzzle)) := by
  induction actions with
  | nil => exact .nil
  | cons action rest ih =>
    obtain ⟨id, command⟩ := action
    cases command with
    | set var val =>
      cases hvar : puzzle.protects var with
      | true =>
        have hline : lineOf puzzle ⟨id, .set var val⟩ =
            some ("Error: variable '" ++ var ++ "' is locked") := by simp [lineOf, hvar]
        rw [List.filterMap_cons_some hline]
        exact .cons (.refused ((puzzle.protects_iff var).1 hvar).symm) ih
      | false =>
        have hline : lineOf puzzle ⟨id, .set var val⟩ = some (var ++ " = " ++ val.render) := by
          simp [lineOf, hvar]
        have hfree := not_or.1 (mt (puzzle.protects_iff var).2 (by simp [hvar]))
        rw [List.filterMap_cons_some hline]
        exact .cons (.written hfree.2 hfree.1 val.shows_render) ih
    | print msg => exact .cons .printed ih
    | _ => exact ih

/-- The action writes to a variable that the puzzle protects. -/
def isRefused (puzzle : Puzzle) (action : Action) : Bool :=
  match action.command with
  | .set var _ => puzzle.protects var
  | _ => false

theorem get?_write (memory : Memory) (puzzle : Puzzle) (name : String) (val : Value)
    (var : String) : (write memory name val puzzle).bindings.get? var =
      if puzzle.protects name = false ∧ name = var then some val
      else memory.bindings.get? var := by
  unfold write
  cases hname : puzzle.protects name with
  | true => simp [print]
  | false =>
    have hcompare : compare var name = .eq ↔ name = var := by
      rw [Std.LawfulEqCmp.compare_eq_iff_eq, eq_comm]
    simp only [Bool.false_eq_true, if_false, print, SortedMap.get?_insert, hcompare, true_and]

/-- A variable that may be written holds what an action writes to it. -/
theorem get?_act (memory : Memory) (action : Action) (puzzle : Puzzle) {var : String}
    (hvar : puzzle.protects var = false) : (act memory action puzzle).bindings.get? var =
      (valueFor var action).elim (memory.bindings.get? var) some := by
  obtain ⟨id, command⟩ := action
  cases command with
  | set name val =>
    rw [act, get?_write, valueFor]
    by_cases hname : name = var
    · subst hname
      simp [hvar]
    · simp [hname]
  | _ => rfl

/-- A variable that may not be written stays as it is. -/
theorem get?_act_of_protected (memory : Memory) (action : Action) (puzzle : Puzzle) {var : String}
    (hvar : puzzle.protects var = true) :
    (act memory action puzzle).bindings.get? var = memory.bindings.get? var := by
  obtain ⟨id, command⟩ := action
  cases command with
  | set name val =>
    rw [act, get?_write, if_neg]
    rintro ⟨hname, rfl⟩
    exact absurd hvar (by simp [hname])
  | _ => rfl

theorem console_act (memory : Memory) (action : Action) (puzzle : Puzzle) :
    (act memory action puzzle).console = memory.console ++ (lineOf puzzle action).toList := by
  obtain ⟨id, command⟩ := action
  cases command with
  | set name val =>
    show (write memory name val puzzle).console = _
    unfold write lineOf
    dsimp only
    split <;> rfl
  | print msg => rfl
  | _ => exact (List.append_nil _).symm

theorem act_scan (puzzle : Puzzle) {action : Action} (h : action.isScan = true)
    (memory : Memory) : act memory action puzzle = memory := by
  obtain ⟨id, command⟩ := action
  cases command with
  | scan => rfl
  | _ => cases h

/-! ## What a list of actions leaves -/

/-- The memory after some actions. -/
def remember (puzzle : Puzzle) (actions : List Action) : Memory :=
  actions.foldl (fun memory action => act memory action puzzle) (start puzzle)

theorem replay_eq_remember (puzzle : Puzzle) (actions : List Action) :
    replay rules puzzle actions = .ok (.math (remember puzzle actions)) :=
  replay_eq_foldl rfl (fun _ _ h => act_scan puzzle h _) (fun _ _ => ⟨_, rfl⟩) actions

theorem get?_remember_of_protected (puzzle : Puzzle) (actions : List Action) {var : String}
    (hvar : puzzle.protects var = true) :
    (remember puzzle actions).bindings.get? var = puzzle.inputs.get? var := by
  unfold remember
  induction actions using List.reverseRecOn with
  | nil => rfl
  | append_singleton actions action ih =>
    rw [List.foldl_append, List.foldl_cons, List.foldl_nil, get?_act_of_protected _ _ _ hvar, ih]

theorem get?_remember (puzzle : Puzzle) (actions : List Action) {var : String}
    (hvar : puzzle.protects var = false) : (remember puzzle actions).bindings.get? var =
      (latest (valueFor var) actions).or (puzzle.inputs.get? var) := by
  rw [remember, foldl_eq_latest (fun memory : Memory => memory.bindings.get? var)
    (fun memory action => get?_act memory action puzzle hvar), start]
  cases latest (valueFor var) actions <;> rfl

theorem console_remember (puzzle : Puzzle) (actions : List Action) :
    (remember puzzle actions).console = actions.filterMap (lineOf puzzle) := by
  unfold remember
  induction actions using List.reverseRecOn with
  | nil => rfl
  | append_singleton actions action ih =>
    rw [List.foldl_append, List.foldl_cons, List.foldl_nil, console_act, ih,
      List.filterMap_append]
    cases h : lineOf puzzle action <;> simp [h]

/-- Refused writes leave nothing in the variables. -/
theorem bindings_remember_filter (puzzle : Puzzle) (actions : List Action) :
    (remember puzzle (actions.filter fun action => !isRefused puzzle action)).bindings =
      (remember puzzle actions).bindings := by
  refine SortedMap.ext_get? fun var => ?_
  cases hvar : puzzle.protects var with
  | true => rw [get?_remember_of_protected _ _ hvar, get?_remember_of_protected _ _ hvar]
  | false =>
    rw [get?_remember _ _ hvar, get?_remember _ _ hvar, latest_filter]
    intro action _ hrefused
    obtain ⟨id, command⟩ := action
    cases command with
    | set name val =>
      refine if_neg fun hname => ?_
      subst hname
      simp [isRefused, hvar] at hrefused
    | _ => cases hrefused

/-- The targets look at the variables alone. -/
theorem solved_of_bindings_eq {memory other : Memory} (h : other.bindings = memory.bindings)
    (puzzle : Puzzle) (reference : Option Reference) :
    solved (.math other) puzzle reference = solved (.math memory) puzzle reference := by
  rw [solved, solved, h]

/-- **The last write wins.** Actions never fail in memory. After them a hidden or locked variable
holds what the puzzle gives it, if anything; any other variable holds what the last `set` of it
gave, or what the puzzle gives it, if anything. The console has the lines of the writes, of the
refused ones too, and of the prints, in the order of the actions and nothing else. Without the
writes to hidden and locked variables all variables would be the same, and the verdict too. -/
theorem last_write_wins (puzzle : Puzzle) (actions : List Action) :
    ∃ memory, replay rules puzzle actions = .ok (.math memory) ∧
      (∀ var, var ∈ puzzle.hiddenVars ∨ var ∈ puzzle.lockedVars →
        memory.bindings.get? var = puzzle.inputs.get? var) ∧
      (∀ var, var ∉ puzzle.hiddenVars → var ∉ puzzle.lockedVars →
        memory.bindings.get? var = (latest (valueFor var) actions).or (puzzle.inputs.get? var)) ∧
      memory.console = actions.filterMap (lineOf puzzle) ∧
      List.Forall₂ (Leaves puzzle) (actions.filter speaks) memory.console ∧
      ∃ other, replay rules puzzle (actions.filter fun action => !isRefused puzzle action) =
          .ok (.math other) ∧
        other.bindings = memory.bindings ∧
        ∀ reference, solved (.math other) puzzle reference =
          solved (.math memory) puzzle reference := by
  refine ⟨_, replay_eq_remember puzzle actions, fun var hvar => ?_, fun var hhidden hlocked => ?_,
    console_remember puzzle actions, ?_, _, replay_eq_remember puzzle _,
    bindings_remember_filter puzzle actions, ?_⟩
  · exact get?_remember_of_protected puzzle actions ((puzzle.protects_iff var).2 hvar.symm)
  · refine get?_remember puzzle actions (Bool.eq_false_iff.2 fun hvar => ?_)
    exact ((puzzle.protects_iff var).1 hvar).elim hlocked hhidden
  · rw [console_remember]
    exact leaves_lineOf puzzle actions
  · exact solved_of_bindings_eq (bindings_remember_filter puzzle actions) puzzle

/-- A sum, and a key that may not be written. -/
def ledger : Puzzle where
  mode := .math
  inputs := .ofList [("key", .number 7), ("sum", .number 1)]
  lockedVars := ["key"]

/-- A list is written to the sum, and a number in the end. Between them the key is written, and
something is printed. -/
def ledgerActions : List Action :=
  [{ command := .set "sum" (.list [.number 3, .text "a", .number 0.1, .number (-2.5)]) },
    { command := .set "key" (.number 9) }, { command := .print "done" }, { command := .scan },
    { command := .set "sum" (.number (-4)) }]

/-- The key is kept and the sum is the last number. All of it is on the console. -/
theorem last_write_wins_ledger : ∃ memory,
    replay rules ledger ledgerActions = .ok (.math memory) ∧
    memory.bindings.get? "key" = some (.number 7) ∧
    memory.bindings.get? "sum" = some (.number (-4)) ∧
    memory.console = ["sum = [3, a, 0.1, -2.5]", "Error: variable 'key' is locked", "done",
      "sum = -4"] := by
  obtain ⟨memory, hreplay, hkept, hwritten, hconsole, -⟩ := last_write_wins ledger ledgerActions
  refine ⟨memory, hreplay, ?_, ?_, ?_⟩
  · rw [hkept "key" (.inr (by decide))]
    rfl
  · rw [hwritten "sum" (by decide) (by decide)]
    rfl
  · rw [hconsole]
    decide +kernel

end Sandbox

end PuzzlePlayback
