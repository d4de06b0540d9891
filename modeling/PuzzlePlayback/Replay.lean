import PuzzlePlayback.World.Rules

/-!
# Replay

The state after a prefix of a program is the fold of the transition function over it from the
initial state. There is no other way to rebuild a state, and none is ever saved.
-/

namespace PuzzlePlayback

/-- Play actions from a state; the first of them has the given index. A scan passes without a
transition. -/
def replayFrom (rules : Rules) (puzzle : Puzzle) (state : World) (index : Nat) :
    List Action → Except StepFault World
  | [] => .ok state
  | action :: actions =>
    if action.isScan then replayFrom rules puzzle state (index + 1) actions
    else
      match rules.step (some state) (some action) puzzle with
      | .ok result => replayFrom rules puzzle result.state (index + 1) actions
      | .error fault => .error (fault.at index)

/-- Playing two lists one after the other is playing them joined. -/
theorem replayFrom_append (rules : Rules) (puzzle : Puzzle) (state : World) (index : Nat)
    (first second : List Action) :
    replayFrom rules puzzle state index (first ++ second) =
      (replayFrom rules puzzle state index first).bind
        (replayFrom rules puzzle · (index + first.length) second) := by
  induction first generalizing state index with
  | nil => rfl
  | cons action rest ih =>
    simp only [List.cons_append, List.length_cons]
    rw [replayFrom, replayFrom, show index + (rest.length + 1) = index + 1 + rest.length by omega]
    split
    · exact ih _ _
    · split
      · exact ih _ _
      · rfl

/-- The state of a puzzle after some actions. -/
def replay (rules : Rules) (puzzle : Puzzle) (actions : List Action) : Except StepFault World :=
  match rules.startState puzzle with
  | .ok state => replayFrom rules puzzle state 0 actions
  | .error fault => .error (fault.at 0)

/-- From a state that can be started in, a replay plays the actions. -/
theorem replay_eq_replayFrom {rules : Rules} {puzzle : Puzzle} {state : World}
    (hstart : rules.startState puzzle = .ok state) (actions : List Action) :
    replay rules puzzle actions = replayFrom rules puzzle state 0 actions := by
  rw [replay, hstart]

section Fold

variable {α : Type} {rules : Rules} {puzzle : Puzzle} {world : α → World} {act : α → Action → α}

/-- Where no action fails, and a scan changes nothing, actions are played by folding over them. -/
theorem replayFrom_eq_foldl
    (hscan : ∀ state action, action.isScan = true → act state action = state)
    (hstep : ∀ state action, ∃ signal, rules.step (some (world state)) (some action) puzzle =
      .ok ⟨world (act state action), signal⟩) (start : α) (index : Nat) (actions : List Action) :
    replayFrom rules puzzle (world start) index actions =
      .ok (world (actions.foldl act start)) := by
  induction actions generalizing start index with
  | nil => rfl
  | cons action rest ih =>
    rw [replayFrom, List.foldl_cons]
    split
    · next h => rw [ih, hscan start action h]
    · obtain ⟨signal, hsignal⟩ := hstep start action
      rw [hsignal]
      exact ih (act start action) (index + 1)

/-- So a replay is the fold from the start. -/
theorem replay_eq_foldl {start : α} (hstart : rules.startState puzzle = .ok (world start))
    (hscan : ∀ state action, action.isScan = true → act state action = state)
    (hstep : ∀ state action, ∃ signal, rules.step (some (world state)) (some action) puzzle =
      .ok ⟨world (act state action), signal⟩) (actions : List Action) :
    replay rules puzzle actions = .ok (world (actions.foldl act start)) := by
  rw [replay_eq_replayFrom hstart]
  exact replayFrom_eq_foldl hscan hstep start 0 actions

end Fold

/-- What a list of actions ends in, as a reference to compare with. -/
def Reference.ofSolution (rules : Rules) (puzzle : Puzzle) (solution : List Action) :
    Except StepFault Reference :=
  (replay rules puzzle solution).map fun state => ⟨state, solution.length⟩

/-- The reference of a puzzle that has a solution. -/
def Reference.ofPuzzle (rules : Rules) (puzzle : Puzzle) :
    Except StepFault (Option Reference) :=
  if puzzle.solution.isEmpty then .ok none
  else (Reference.ofSolution rules puzzle puzzle.solution).map some

end PuzzlePlayback
