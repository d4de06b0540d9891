import PuzzlePlayback.Proofs.Reachable
import PuzzlePlayback.Timers.RequestQueue

/-!
# The state is a replay

The state of a player is written by single actions, by scans and by journeys, and the counter of
steps by as many. Whatever a host does, the state is the replay of the actions before the counter.

The argument has one condition on the rules, `Rules.StartsFresh`: an action played in no world is
that action played in the initial state. The four modes of the library meet it
(`startsFresh_ofMode`). Then playing one more action is replaying one more (`replay_succ`), and
`Faithful`, the invariant, survives each move of a place.

Main result: `state_is_replay`.
-/

namespace PuzzlePlayback

/-! ## The first action -/

/-- An action played in no world is the action played in the initial state. -/
def Rules.StartsFresh (rules : Rules) : Prop :=
  ∀ action puzzle, rules.step none (some action) puzzle =
    (rules.startState puzzle).bind fun state => rules.step (some state) (some action) puzzle

theorem Walk.startsFresh : Walk.rules.StartsFresh := by
  intro action puzzle
  show Walk.step none (some action) puzzle = Except.bind ((Walk.step none none puzzle).map _)
    fun state => Walk.step (some state) (some action) puzzle
  simp only [Walk.step, Walk.robotOf]
  cases Walk.start puzzle <;> rfl

theorem Drawing.startsFresh : Drawing.rules.StartsFresh := fun _ _ => rfl

theorem Sandbox.startsFresh : Sandbox.rules.StartsFresh := fun _ _ => rfl

theorem Solver.startsFresh : Solver.rules.StartsFresh := by
  intro action puzzle
  show Solver.step none (some action) puzzle = Except.bind ((Solver.step none none puzzle).map _)
    fun state => Solver.step (some state) (some action) puzzle
  simp only [Solver.step, Solver.equationOf]
  cases Solver.start puzzle <;> rfl

theorem startsFresh_ofMode (mode : Mode) : (Rules.ofMode mode).StartsFresh := by
  cases mode with
  | maze => exact Walk.startsFresh
  | turtle => exact Drawing.startsFresh
  | math => exact Sandbox.startsFresh
  | equation => exact Solver.startsFresh

/-! ## One more action -/

namespace Stage

/-- The state that an action leads to; a failure is located at its index. -/
def advance (stage : Stage) (state : Option World) (index : Nat) (action : Action) :
    Except StepFault World :=
  match stage.transition state action with
  | .ok t => .ok t.state
  | .error fault => .error (fault.at index)

theorem advance_none {stage : Stage} (hfresh : stage.rules.StartsFresh) (action : Action) :
    stage.advance none 0 action =
      match stage.rules.startState stage.puzzle with
      | .ok state => stage.advance (some state) 0 action
      | .error fault => .error (fault.at 0) := by
  unfold advance transition
  by_cases hscan : action.isScan
  · simp only [hscan, if_true]
    cases stage.rules.startState stage.puzzle <;> rfl
  · simp only [hscan]
    rw [if_neg Bool.false_ne_true, hfresh action stage.puzzle]
    cases stage.rules.startState stage.puzzle <;> rfl

theorem replayFrom_single (stage : Stage) (state : World) (index : Nat) (action : Action) :
    replayFrom stage.rules stage.puzzle state index [action] =
      stage.advance (some state) index action := by
  unfold advance transition
  rw [replayFrom]
  by_cases hscan : action.isScan
  · simp only [hscan, if_true]
    rfl
  · simp only [hscan]
    rw [if_neg Bool.false_ne_true, if_neg Bool.false_ne_true]
    split <;> simp_all [replayFrom]

/-- Replaying one more action is replaying the others and then playing it. -/
theorem replay_snoc (stage : Stage) (actions : List Action) (action : Action) :
    replay stage.rules stage.puzzle (actions ++ [action]) =
      (replay stage.rules stage.puzzle actions).bind fun state =>
        stage.advance (some state) actions.length action := by
  unfold replay
  cases stage.rules.startState stage.puzzle with
  | error fault => rfl
  | ok state =>
    dsimp only
    rw [replayFrom_append]
    simp only [replayFrom_single, Nat.zero_add]

end Stage

namespace Player

/-! ## The invariant -/

/-- The state is the replay of the actions before the counter; without a state the counter is at
zero. -/
structure Faithful (a : Place) : Prop where
  replayed : ∀ state, a.state = some state → ∃ program, a.program = some program ∧
    a.step ≤ program.size ∧
    replay a.stage.rules a.stage.puzzle (program.actions.take a.step) = .ok state
  unplayed : a.state = none → a.step = 0

theorem faithful_outset (stage : Stage) (program : Option Program) :
    Faithful (.outset stage program) where
  replayed _ h := nomatch h
  unplayed _ := rfl

/-- Playing the next action is replaying one action more. -/
theorem Faithful.replay_succ {a : Place} (h : Faithful a) (hfresh : a.stage.rules.StartsFresh)
    {program : Program} {action : Action} (hprogram : a.program = some program)
    (haction : program.actions[a.step]? = some action) :
    replay a.stage.rules a.stage.puzzle (program.actions.take (a.step + 1)) =
      a.stage.advance a.state a.step action := by
  rw [List.take_add_one, haction]
  show replay _ _ (_ ++ [action]) = _
  rw [Stage.replay_snoc]
  cases hstate : a.state with
  | none =>
    rw [h.unplayed hstate, List.take_zero, Stage.advance_none hfresh]
    unfold replay
    cases a.stage.rules.startState a.stage.puzzle <;> rfl
  | some state =>
    obtain ⟨loaded, hloaded, hle, hreplay⟩ := h.replayed state hstate
    obtain rfl : loaded = program := Option.some.inj (hloaded.symm.trans hprogram)
    rw [hreplay, List.length_take_of_le hle]
    rfl

theorem Faithful.move {a b : Place} (h : Faithful a) (hfresh : a.stage.rules.StartsFresh)
    (hmove : Place.Move a b) : Faithful b := by
  cases hmove with
  | stays => exact h
  | rewinds => exact faithful_outset _ _
  | changes program => exact faithful_outset _ _
  | @plays program action t hprogram haction ht =>
    have hsucc := h.replay_succ hfresh hprogram haction
    rw [Stage.advance, ht] at hsucc
    refine ⟨?_, fun hnone => nomatch hnone⟩
    intro state hstate
    cases hstate
    have hlt : a.step < program.size := (List.getElem?_eq_some_iff.1 haction).1
    exact ⟨program, hprogram, hlt, hsucc⟩
  | @travels program n state hprogram hle hreplay =>
    refine ⟨?_, fun hnone => nomatch hnone⟩
    intro s hs
    cases hs
    exact ⟨program, hprogram, hle, hreplay⟩

theorem Turn.faithful {σ : Type} [TimerSource σ] {p q : Player σ} {control : Control}
    {auto : Bool} (h : Turn p control q auto) (hp : Faithful p.place) : Faithful q.place := by
  rcases h.place with hplace | ⟨program, hplace⟩
  · rw [hplace]; exact hp
  · rw [hplace]; exact faithful_outset _ _

theorem Reachable.faithful {σ : Type} [TimerSource σ] {first p : Player σ}
    (h : Reachable first p) (hfresh : first.stage.rules.StartsFresh)
    (hfirst : Faithful first.place) : Faithful p.place := by
  have hboth : Faithful p.place ∧ p.place.stage = first.stage := by
    refine h.place_invariant (I := fun a => Faithful a ∧ a.stage = first.stage)
      ⟨hfirst, rfl⟩ ?_
    rintro a b ⟨ha, hstage⟩ hmove
    exact ⟨ha.move (hstage ▸ hfresh) hmove, hmove.stage_eq.trans hstage⟩
  exact hboth.1

/-- A turn succeeds where the replay of one action more does, and fails with its fault. -/
theorem proceed_eq_replay {σ : Type} [TimerSource σ] {q : Player σ} (hq : Faithful q.place)
    (hfresh : q.stage.rules.StartsFresh) {program : Program} {action : Action}
    (hprogram : q.program = some program) (haction : program.actions[q.step]? = some action)
    (auto : Bool) :
    match replay q.stage.rules q.stage.puzzle (program.actions.take (q.step + 1)) with
    | .ok state => (q.proceed auto).error = none ∧ (q.proceed auto).player.state = some state ∧
        (q.proceed auto).player.step = q.step + 1
    | .error fault => (q.proceed auto).error = some (.fault fault) := by
  have hsucc : replay q.stage.rules q.stage.puzzle (program.actions.take (q.step + 1)) =
      q.stage.advance q.state q.step action := hq.replay_succ hfresh hprogram haction
  have hnext : q.action? q.step = some action := by simp [action?, hprogram, haction]
  rw [hsucc, Stage.advance]
  cases ht : q.stage.transition q.state action with
  | error fault =>
    rw [proceed_of_error hnext ht]
    rfl
  | ok t =>
    have hplace := (q.commit t.state).place_follow auto t.signal
    rw [proceed_of_ok hnext ht]
    exact ⟨rfl, congrArg Place.state hplace, congrArg Place.step hplace⟩

/-- **The state is a replay.** Whatever a host does with a player of one of the four modes: if the
player has a state, that is the replay of the actions before its counter; if it has none, the
counter is at zero. An operation that plays the action at the counter succeeds exactly if the
replay of one action more does, and then has that replay's state; else it reports that replay's
fault. No operation tells of a step in any other way. -/
theorem state_is_replay {σ : Type} [TimerSource σ] {registry : Registry} {puzzle : Puzzle}
    {source : ProgramSource} {timers : σ} {preferences : Preferences} {hours : Nat → Nat}
    {first p : Player σ}
    (hcreate : create registry puzzle source timers preferences hours = .ok first)
    (hmode : registry.find puzzle.mode = some (.ofMode puzzle.mode))
    (hreach : Reachable first p) :
    (∀ state, p.state = some state → ∃ program, p.program = some program ∧
      p.step ≤ program.size ∧
      replay (.ofMode puzzle.mode) puzzle (program.actions.take p.step) = .ok state) ∧
    (p.state = none → p.step = 0) ∧
    (∀ control q auto program action, Turn p control q auto → q.program = some program →
      program.actions[q.step]? = some action →
      match replay (.ofMode puzzle.mode) puzzle (program.actions.take (q.step + 1)) with
      | .ok state => (p.obey control).error = none ∧
          (p.obey control).player.state = some state ∧
          (p.obey control).player.step = q.step + 1
      | .error fault => (p.obey control).error = some (.fault fault)) ∧
    (∀ control, ∃ told, (p.obey control).player.events = p.events ++ told ∧
      ∀ step index, .stepped step index ∈ told →
        ∃ q auto, Turn p control q auto ∧ q.step < q.programSize) := by
  obtain ⟨rules, reference, hfind, _, rfl⟩ := create_eq_ok hcreate
  obtain rfl : Rules.ofMode puzzle.mode = rules := Option.some.inj (hmode.symm.trans hfind)
  have hstage := hreach.stage_eq
  have hrules : p.stage.rules = .ofMode puzzle.mode := by rw [hstage]
  have hpuzzle : p.stage.puzzle = puzzle := by rw [hstage]
  have hfresh := startsFresh_ofMode puzzle.mode
  have hp : Faithful p.place := hreach.faithful hfresh (faithful_outset _ _)
  refine ⟨fun state hstate => ?_, hp.unplayed, ?_, fun control => (p.course control).told⟩
  · rw [← hrules, ← hpuzzle]
    exact hp.replayed state hstate
  · intro control q auto program action turn hprogram haction
    have hq : q.stage = p.stage := turn.move.stage_eq
    rw [turn.obey_eq, ← hrules, ← hpuzzle, ← hq]
    refine proceed_eq_replay (turn.faithful hp) ?_ hprogram haction auto
    rw [hq, hrules]
    exact hfresh

/-- The second line is printed when the first timer is due, and the console shows both. -/
theorem state_is_replay_novice :
    let first := novice RequestQueue.empty
    let p := ((first.obey .play).player.obey (.deliver 1)).player
    Reachable first p ∧ p.state = some (.math ⟨.empty, ["a", "b"]⟩) ∧
      ∃ program, p.program = some program ∧ p.step ≤ program.size ∧
        replay Sandbox.rules blankPuzzle (program.actions.take p.step) =
          .ok (.math ⟨.empty, ["a", "b"]⟩) := by
  intro first p
  have hreach : Reachable first p := .obey (.deliver 1) (.obey .play .refl)
  have hstate : p.state = some (.math ⟨.empty, ["a", "b"]⟩) := rfl
  exact ⟨hreach, hstate, (state_is_replay (create_novice _) rfl hreach).1 _ hstate⟩

end Player

end PuzzlePlayback
