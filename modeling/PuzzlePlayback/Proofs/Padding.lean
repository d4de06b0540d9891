import PuzzlePlayback.Proofs.Errors
import PuzzlePlayback.Proofs.StateReplay
import PuzzlePlayback.Proofs.StopAndGo

/-!
# Padding makes no difference

A program may carry advice that no mode acts on: the blocks its actions came from, scans, unknown
commands, commands of other modes. Two programs that differ in these alone come to the same.

`Padding heeds actions padded` says how the one list comes from the other: actions are kept, up
to their blocks, and actions that the mode does not heed are put between them; `Padding.shift`
tells where an action of the first list went. What the modes have in common is
`Rules.PassesOver`: they read nothing of an action but its command, and pass over those they do
not heed. The rest follows the program from there (`run_padding`), with one state of each run in
view: a padded run may have a world before the first action that counts, where the other has none
yet, so states are compared up to the initial one.

Main result: `padding_makes_no_difference`.
-/

namespace PuzzlePlayback

open Calculator

/-! ## Padded programs -/

/-- The commands that a mode acts on. -/
def Mode.heeds : Mode → Command → Bool
  | .maze, .move _ | .maze, .turnLeft | .maze, .turnRight => true
  | .turtle, .move (some _) | .turtle, .turnLeft | .turtle, .turnRight | .turtle, .turn _
  | .turtle, .pen _ | .turtle, .color _ => true
  | .math, .set _ _ | .math, .print _ => true
  | .equation, .bothSides _ _ => true
  | _, _ => false

/-- How a list of actions is padded: its actions are kept, whatever block they are said to come
from, and actions that are not heeded are put in. -/
inductive Padding (heeds : Command → Bool) : List Action → List Action → Type
  | nil : Padding heeds [] []
  | keep {a b : Action} {actions padded : List Action} : b.command = a.command →
      Padding heeds actions padded → Padding heeds (a :: actions) (b :: padded)
  | put {b : Action} {actions padded : List Action} : heeds b.command = false →
      Padding heeds actions padded → Padding heeds actions (b :: padded)

namespace Padding

variable {heeds : Command → Bool} {actions padded : List Action}

/-- Where the action at an index went; the end goes to the end. -/
def shift {actions padded : List Action} : Padding heeds actions padded → Nat → Nat
  | .nil, i => i
  | .keep _ _, 0 => 0
  | .keep _ rest, i + 1 => rest.shift i + 1
  | .put _ rest, i => rest.shift i + 1

/-- The action that went there has the same command. -/
theorem command_shift (padding : Padding heeds actions padded) (i : Nat) :
    padded[padding.shift i]?.map Action.command = actions[i]?.map Action.command := by
  induction padding generalizing i with
  | nil => rfl
  | keep hcommand rest ih =>
    cases i with
    | zero => exact congrArg some hcommand
    | succ i => exact ih i
  | put _ rest ih => exact ih i

end Padding

/-! ## Modes pass over what they do not heed -/

/-- Rules that read nothing of an action but its command, and pass over what they do not heed. -/
structure Rules.PassesOver (rules : Rules) (heeds : Command → Bool) : Prop where
  fresh : rules.StartsFresh
  command : ∀ {a b : Action} (state : Option World) (puzzle : Puzzle), b.command = a.command →
    rules.step state (some b) puzzle = rules.step state (some a) puzzle
  mode : ∀ {state : Option World} {action : Option Action} {puzzle : Puzzle} {t : Transition},
    rules.step state action puzzle = .ok t → t.state.mode = rules.mode
  idle : ∀ {world : World} {action : Action} (puzzle : Puzzle), world.mode = rules.mode →
    heeds action.command = false →
    rules.step (some world) (some action) puzzle = .ok (.running world)

theorem Walk.passesOver : Walk.rules.PassesOver Mode.maze.heeds where
  fresh := Walk.startsFresh
  command state puzzle h := by simp only [Walk.rules, Walk.step, Walk.act, h]
  mode {state action puzzle t} h := by
    obtain ⟨robot, -, h⟩ := bind_eq_ok h
    cases action <;> cases h <;> rfl
  idle {world action} puzzle hworld hidle := by
    cases world <;> cases hworld
    obtain ⟨id, command⟩ := action
    cases command <;> first | rfl | cases hidle

theorem Drawing.passesOver : Drawing.rules.PassesOver Mode.turtle.heeds where
  fresh := Drawing.startsFresh
  command state puzzle h := by simp only [Drawing.rules, Drawing.step, Drawing.act, h]
  mode {state action puzzle t} h := by
    obtain ⟨turtle, -, h⟩ := bind_eq_ok h
    cases action <;> cases h <;> rfl
  idle {world action} puzzle hworld hidle := by
    cases world <;> cases hworld
    obtain ⟨id, command⟩ := action
    cases command with
    | move dist => cases dist <;> first | rfl | cases hidle
    | _ => first | rfl | cases hidle

theorem Sandbox.passesOver : Sandbox.rules.PassesOver Mode.math.heeds where
  fresh := Sandbox.startsFresh
  command state puzzle h := by simp only [Sandbox.rules, Sandbox.step, Sandbox.act, h]
  mode {state action puzzle t} h := by
    obtain ⟨memory, -, h⟩ := bind_eq_ok h
    cases action <;> cases h <;> rfl
  idle {world action} puzzle hworld hidle := by
    cases world <;> cases hworld
    obtain ⟨id, command⟩ := action
    cases command <;> first | rfl | cases hidle

theorem Solver.passesOver : Solver.rules.PassesOver Mode.equation.heeds where
  fresh := Solver.startsFresh
  command state puzzle h := by simp only [Solver.rules, Solver.step, Option.map_some, h]
  mode {state action puzzle t} h := by
    obtain ⟨equation, -, h⟩ := bind_eq_ok h
    split at h
    · obtain ⟨next, -, h⟩ := bind_eq_ok h
      cases h
      rfl
    · cases h
      rfl
  idle {world action} puzzle hworld hidle := by
    cases world <;> cases hworld
    obtain ⟨id, command⟩ := action
    cases command <;> first | rfl | cases hidle

theorem passesOver_ofMode (mode : Mode) : (Rules.ofMode mode).PassesOver mode.heeds := by
  cases mode with
  | maze => exact Walk.passesOver
  | turtle => exact Drawing.passesOver
  | math => exact Sandbox.passesOver
  | equation => exact Solver.passesOver

/-! ## One transition -/

section

variable {stage : Stage} {heeds : Command → Bool} (h : stage.rules.PassesOver heeds)
  {start : World} (hstart : stage.rules.startState stage.puzzle = .ok start)

include h

theorem Rules.PassesOver.transition_eq {a b : Action} (hcommand : b.command = a.command)
    (state : Option World) : stage.transition state b = stage.transition state a := by
  have hscan : b.isScan = a.isScan := by rw [Action.isScan, hcommand, Action.isScan]
  unfold Stage.transition
  rw [hscan, h.command state stage.puzzle hcommand]

theorem Rules.PassesOver.transition_idle {world : World} {action : Action}
    (hworld : world.mode = stage.rules.mode) (hidle : heeds action.command = false) :
    stage.transition (some world) action = .ok (.running world) := by
  unfold Stage.transition
  split
  · rfl
  · exact h.idle stage.puzzle hworld hidle

theorem Rules.PassesOver.transition_mode {world : World} {action : Action} {t : Transition}
    (hworld : world.mode = stage.rules.mode)
    (ht : stage.transition (some world) action = .ok t) : t.state.mode = stage.rules.mode := by
  unfold Stage.transition at ht
  split at ht
  · cases ht
    exact hworld
  · exact h.mode ht

include hstart

theorem Rules.PassesOver.start_mode : start.mode = stage.rules.mode := by
  obtain ⟨t, ht, rfl⟩ := map_eq_ok hstart
  exact h.mode ht

/-- An action played in no world is played in the initial one. -/
theorem Rules.PassesOver.transition_getD (state : Option World) (action : Action) :
    stage.transition state action = stage.transition (some (state.getD start)) action := by
  cases state with
  | some world => rfl
  | none =>
    unfold Stage.transition
    split
    · show (stage.rules.startState stage.puzzle).map _ = _
      rw [hstart]
      rfl
    · rw [h.fresh action stage.puzzle, hstart]
      rfl

omit h in
theorem Stage.solved_getD (state : Option World) :
    stage.solved state = stage.solved (some (state.getD start)) := by
  cases state with
  | some world => rfl
  | none => simp only [solved, hstart, Option.getD_none]

end

/-! ## Padded runs -/

/-- Two runs from the indices `i` and `j` come to the same: the states are the same up to the
initial one, and where the index matters the one of the second run is shifted. -/
inductive SameRun (start : World) (shift : Nat → Nat) (i j : Nat) :
    Except StepFault Arrival → Except StepFault Arrival → Prop
  | arrived {state state' : Option World} {step step' : Nat} {ending : Ending} :
      state'.getD start = state.getD start →
      (ending = .verdict → ∃ k, step = i + k ∧ step' = j + shift k) →
      SameRun start shift i j (.ok ⟨state, step, ending⟩) (.ok ⟨state', step', ending⟩)
  | faulted {k : Nat} {fault : Fault} :
      SameRun start shift i j (.error (fault.at (i + k))) (.error (fault.at (j + shift k)))

/-- Counting from other indices. -/
theorem SameRun.recount {start : World} {shift shift' : Nat → Nat} {i j i' j' : Nat}
    {a b : Except StepFault Arrival} (h : SameRun start shift i j a b)
    (hindex : ∀ k, ∃ k', i + k = i' + k' ∧ j + shift k = j' + shift' k') :
    SameRun start shift' i' j' a b := by
  cases h with
  | arrived hstate hverdict =>
    refine .arrived hstate fun hending => ?_
    obtain ⟨k, rfl, rfl⟩ := hverdict hending
    exact hindex k
  | @faulted k fault =>
    obtain ⟨k', hi, hj⟩ := hindex k
    rw [hi, hj]
    exact .faulted

/-- A padded list of actions is played like the list itself. -/
theorem run_padding {stage : Stage} {heeds : Command → Bool}
    (h : stage.rules.PassesOver heeds) {start : World}
    (hstart : stage.rules.startState stage.puzzle = .ok start) {actions padded : List Action}
    (padding : Padding heeds actions padded) (state state' : Option World) (i j : Nat)
    (hstate : state'.getD start = state.getD start)
    (hmode : (state.getD start).mode = stage.rules.mode) :
    SameRun start padding.shift i j (stage.run state i actions) (stage.run state' j padded) := by
  induction padding generalizing state state' i j with
  | nil => exact .arrived hstate fun _ => ⟨0, rfl, rfl⟩
  | @keep a b actions padded hcommand rest ih =>
    have hpadded : stage.transition state' b = stage.transition state a := by
      rw [h.transition_eq hcommand, h.transition_getD hstart state' a, hstate,
        ← h.transition_getD hstart state a]
    unfold Stage.run
    rw [hpadded]
    cases ht : stage.transition state a with
    | error fault => exact .faulted (k := 0)
    | ok t =>
      dsimp only
      cases hsignal : t.signal with
      | win => exact .arrived rfl (by simp)
      | lost => exact .arrived rfl (by simp)
      | running =>
        rw [h.transition_getD hstart] at ht
        have hrest := ih (some t.state) (some t.state) (i + 1) (j + 1) rfl
          (h.transition_mode hmode ht)
        exact hrest.recount fun k => ⟨k + 1, Nat.add_right_comm i 1 k, Nat.add_right_comm j 1 _⟩
  | @put b actions padded hidle rest ih =>
    have hpadded : stage.transition state' b = .ok (.running (state.getD start)) := by
      rw [h.transition_getD hstart, hstate]
      exact h.transition_idle hmode hidle
    have hrun : stage.run state' j (b :: padded) =
        stage.run (some (state.getD start)) (j + 1) padded := by
      rw [Stage.run, hpadded]
      rfl
    rw [hrun]
    exact (ih state (some (state.getD start)) i (j + 1) rfl hmode).recount fun k =>
      ⟨k, rfl, Nat.add_right_comm j 1 _⟩

/-- Two programs end in the same way: with the same outcome and state, up to the initial one, or
with the same fault at a shifted index. -/
inductive SameEnd (start : World) (shift : Nat → Nat) :
    Except StepFault Finish → Except StepFault Finish → Prop
  | finished {a b : Finish} : b.outcome = a.outcome →
      b.state.getD start = a.state.getD start → SameEnd start shift (.ok a) (.ok b)
  | faulted {step : Nat} {fault : Fault} :
      SameEnd start shift (.error (fault.at step)) (.error (fault.at (shift step)))

/-- A padded program ends like the program itself. -/
theorem oneShot_padding {stage : Stage} {heeds : Command → Bool}
    (h : stage.rules.PassesOver heeds) {start : World}
    (hstart : stage.rules.startState stage.puzzle = .ok start) {program padded : Program}
    (padding : Padding heeds program.actions padded.actions)
    (hblocks : padded.blockCount = program.blockCount) :
    SameEnd start padding.shift (stage.oneShot program 0) (stage.oneShot padded 0) := by
  have hrun := run_padding h hstart padding none none 0 0 rfl (h.start_mode hstart)
  unfold Stage.oneShot
  rw [hblocks]
  generalize stage.run none 0 program.actions = a at hrun ⊢
  generalize stage.run none 0 padded.actions = b at hrun ⊢
  cases hrun with
  | @arrived state state' step step' ending hstate hverdict =>
    simp only [Except.bind]
    cases ending with
    | win => exact .finished rfl hstate
    | lose => exact .finished rfl hstate
    | verdict =>
      obtain ⟨k, rfl, rfl⟩ := hverdict rfl
      have hsolved : stage.solved state' = stage.solved state := by
        rw [Stage.solved_getD hstart state', hstate, ← Stage.solved_getD hstart state]
      simp only [Stage.resolve, hsolved, Nat.zero_add]
      cases stage.solved state with
      | error fault => exact .faulted
      | ok verdict =>
        cases verdict with
        | true => exact .finished rfl hstate
        | false => exact .finished rfl hstate
  | @faulted k fault =>
    simp only [Except.bind, Nat.zero_add]
    exact .faulted

/-! ## Padded replays -/

theorem replayFrom_cons (stage : Stage) (world : World) (index : Nat) (action : Action)
    (actions : List Action) : replayFrom stage.rules stage.puzzle world index (action :: actions) =
      (stage.advance (some world) index action).bind fun next =>
        replayFrom stage.rules stage.puzzle next (index + 1) actions := by
  rw [← Stage.replayFrom_single, ← List.singleton_append, replayFrom_append]
  rfl

/-- The actions before an index and the padded actions before its shift lead to the same state. -/
theorem replayFrom_padding {stage : Stage} {heeds : Command → Bool}
    (h : stage.rules.PassesOver heeds) {actions padded : List Action}
    (padding : Padding heeds actions padded) {world final : World} (i j k : Nat)
    (hmode : world.mode = stage.rules.mode)
    (hfinal : replayFrom stage.rules stage.puzzle world i (actions.take k) = .ok final) :
    replayFrom stage.rules stage.puzzle world j (padded.take (padding.shift k)) = .ok final := by
  induction padding generalizing world i j k with
  | nil =>
    rw [List.take_nil] at hfinal ⊢
    exact hfinal
  | @keep a b actions padded hcommand rest ih =>
    cases k with
    | zero => exact hfinal
    | succ k =>
      rw [List.take_succ_cons, replayFrom_cons] at hfinal
      show replayFrom _ _ world j ((b :: padded).take (rest.shift k + 1)) = _
      rw [List.take_succ_cons, replayFrom_cons, Stage.advance, h.transition_eq hcommand]
      obtain ⟨next, hnext, hfinal⟩ := bind_eq_ok hfinal
      unfold Stage.advance at hnext
      cases ht : stage.transition (some world) a with
      | error fault =>
        rw [ht] at hnext
        cases hnext
      | ok t =>
        rw [ht] at hnext
        cases hnext
        exact ih (i + 1) (j + 1) k (h.transition_mode hmode ht) hfinal
  | @put b actions padded hidle rest ih =>
    show replayFrom _ _ world j ((b :: padded).take (rest.shift k + 1)) = _
    rw [List.take_succ_cons, replayFrom_cons, Stage.advance, h.transition_idle hmode hidle]
    exact ih i (j + 1) k hmode hfinal

namespace Player

/-! ## Playing in one go -/

/-- Without a journey, what fails is the transition at the counter. -/
theorem Stumbles.step_eq {σ : Type} [TimerSource σ] {p : Player σ} {control : Control}
    {place : Place} {fault : StepFault} (h : Stumbles p control place fault)
    (hplain : Plain control) : fault.step = place.step := by
  cases h with
  | action _ _ _ => rfl
  | verdict _ _ => rfl
  | journey _ _ => exact hplain.elim

/-- What playing a program in one go comes to: the outcome of the program, with the hour of a first
win, or its fault, in the state that the actions before it lead to. -/
inductive Straight (stage : Stage) (program : Program) (start : World)
    (reply : Reply ManualClock) : Prop
  | ended {finish : Finish} :
      stage.oneShot program 0 = .ok finish → reply.error = none →
      reply.player.status = finish.outcome.status → reply.player.outcome = some finish.outcome →
      reply.player.state = finish.state → Straight stage program start reply
  | stopped {fault : StepFault} :
      stage.oneShot program 0 = .error fault → reply.error = some (.fault fault) →
      reply.player.status = .paused → reply.player.outcome = none →
      replayFrom stage.rules stage.puzzle start 0 (program.actions.take fault.step) =
        .ok (reply.player.state.getD start) → Straight stage program start reply

section

variable {first : Player ManualClock} {program : Program} {start : World}
  (hfirst : OnTrack program first) (hcoherent : Coherent first) (hrange : InRange first.place)
  (hfaithful : Faithful first.place) (hfresh : first.stage.rules.StartsFresh)
  (hstart : first.stage.rules.startState first.stage.puzzle = .ok start)

include hfirst hcoherent hrange hfaithful hfresh hstart

/-- A run that fails on the way pauses, in the state that the actions before the fault lead to. -/
theorem RepliesTo.stopped {reply : Reply ManualClock} (h : RepliesTo first reply)
    {error : PlaybackError} (herror : reply.error = some error) :
    Straight first.stage program start reply := by
  obtain ⟨fault, rfl, hshot⟩ := h.fault hfirst hcoherent hrange herror
  obtain ⟨htrack, -, -, hstage⟩ := h.onTrack hfirst hcoherent hrange
  cases h with
  | done _ => cases herror
  | @obey p control hplain hrun =>
    have hp := (hrun.reachable.coherent hcoherent hrange).1
    obtain ⟨hstopped, hhalted⟩ := (p.course control).halted hp herror
    have hplace := (hrun.reachable.obey control).faithful hfresh hfaithful
    cases hhalted with
    | fault hstatus hstumbles _ _ _ =>
      refine .stopped (hshot 0) herror hstatus hstopped.outcome ?_
      rw [hstumbles.step_eq hplain]
      cases hstate : (p.obey control).player.state with
      | none => rw [hplace.unplayed hstate]; rfl
      | some state =>
        obtain ⟨loaded, hloaded, -, hreplay⟩ := hplace.replayed state hstate
        obtain rfl := htrack.player.loaded loaded hloaded
        replace hstage : (p.obey control).player.place.stage = first.stage := hstage
        rw [hstage, replay, hstart] at hreplay
        exact hreplay

theorem straight_play (hready : Ready first) (hidle : first.status = .idle)
    (hnew : first.wins = 0) :
    Straight first.stage program start (first.play.andThen playOut) := by
  obtain ⟨hreplies, hends⟩ := straight_ends hready hidle
  cases herror : (first.play.andThen playOut).error with
  | some error => exact hreplies.stopped hfirst hcoherent hrange hfaithful hfresh hstart herror
  | none =>
    obtain ⟨finish, hshot, hstatus, hstate, -, houtcome, -⟩ :=
      hreplies.finish hfirst hcoherent hrange (hends herror)
    rw [Nat.sub_eq_zero_of_le (straight_wins_le hnew)] at hshot
    exact .ended hshot herror hstatus houtcome hstate

end

/-- A new player of a program, played in one go. -/
theorem straight_create {registry : Registry} {puzzle : Puzzle} {program : Program}
    {preferences : Preferences} {hours : Nat → Nat} {first : Player ManualClock} {start : World}
    (hfirst : create registry puzzle (.always program) .atZero preferences hours = .ok first)
    (hmode : registry.find puzzle.mode = some (.ofMode puzzle.mode))
    (hstart : (Rules.ofMode puzzle.mode).startState puzzle = .ok start) :
    Straight first.stage program start (first.play.andThen playOut) := by
  obtain ⟨htrack, hcoherent, hrange⟩ := onTrack_create hfirst
  obtain ⟨hready, hidle, hnew⟩ := ready_create hfirst
  obtain ⟨rules, reference, hfind, -, rfl⟩ := create_eq_ok hfirst
  obtain rfl : Rules.ofMode puzzle.mode = rules := Option.some.inj (hmode.symm.trans hfind)
  exact straight_play htrack hcoherent hrange (faithful_outset _ none)
    (startsFresh_ofMode puzzle.mode) hstart hready hidle hnew

/-- A program and the same program padded, each played in one go, come to the same. -/
theorem Straight.same {stage : Stage} {heeds : Command → Bool}
    (h : stage.rules.PassesOver heeds) {start : World}
    (hstart : stage.rules.startState stage.puzzle = .ok start) {program padded : Program}
    (padding : Padding heeds program.actions padded.actions)
    (hblocks : padded.blockCount = program.blockCount) {a b : Reply ManualClock}
    (ha : Straight stage program start a) (hb : Straight stage padded start b) :
    b.player.status = a.player.status ∧ b.player.outcome = a.player.outcome ∧
      b.player.state.getD start = a.player.state.getD start ∧
      (a.error = none ∧ b.error = none ∨
        ∃ fault, a.error = some (.fault fault) ∧
          b.error = some (.fault (fault.fault.at (padding.shift fault.step)))) := by
  have hend := oneShot_padding h hstart padding hblocks
  cases ha with
  | @ended finish hshot herror hstatus houtcome hstate =>
    rw [hshot] at hend
    cases hb with
    | ended hshot' herror' hstatus' houtcome' hstate' =>
      rw [hshot'] at hend
      cases hend with
      | finished hout hstates =>
        rw [hstatus, hstatus', houtcome, houtcome', hstate, hstate', hout]
        exact ⟨rfl, rfl, hstates, .inl ⟨herror, herror'⟩⟩
    | stopped hshot' _ _ _ _ =>
      rw [hshot'] at hend
      cases hend
  | @stopped fault hshot herror hstatus houtcome hstate =>
    rw [hshot] at hend
    cases hb with
    | ended hshot' _ _ _ _ =>
      rw [hshot'] at hend
      cases hend
    | stopped hshot' herror' hstatus' houtcome' hstate' =>
      rw [hshot'] at hend
      cases hend with
      | @faulted step cause =>
        have hreplay := replayFrom_padding h padding 0 0 step (h.start_mode hstart) hstate
        refine ⟨hstatus'.trans hstatus.symm, houtcome'.trans houtcome.symm, ?_, .inr
          ⟨_, herror, herror'⟩⟩
        exact Except.ok.inj (hstate'.symm.trans hreplay)

/-- **Padding makes no difference.** Take a puzzle that can be started, a program, and the same
program with other blocks said to be behind its actions and with actions put in that the mode does
not heed. Played in one go with new players, they end with the same status and outcome and in the
same state, where no state counts as the initial one; and if the one stops with a fault, so does
the other, with the same fault at the same action. -/
theorem padding_makes_no_difference {registry : Registry} {puzzle : Puzzle}
    {program padded : Program} {preferences others : Preferences} {hours : Nat → Nat}
    {first second : Player ManualClock} {start : World}
    (hfirst : create registry puzzle (.always program) .atZero preferences hours = .ok first)
    (hsecond : create registry puzzle (.always padded) .atZero others hours = .ok second)
    (hmode : registry.find puzzle.mode = some (.ofMode puzzle.mode))
    (hstart : (Rules.ofMode puzzle.mode).startState puzzle = .ok start)
    (hblocks : padded.blockCount = program.blockCount)
    (padding : Padding puzzle.mode.heeds program.actions padded.actions) :
    let a := first.play.andThen playOut
    let b := second.play.andThen playOut
    b.player.status = a.player.status ∧ b.player.outcome = a.player.outcome ∧
      b.player.state.getD start = a.player.state.getD start ∧
      (a.error = none ∧ b.error = none ∨
        ∃ fault, a.error = some (.fault fault) ∧
          b.error = some (.fault (fault.fault.at (padding.shift fault.step))) ∧
          padded.actions[padding.shift fault.step]?.map Action.command =
            program.actions[fault.step]?.map Action.command) := by
  intro a b
  have ha := straight_create hfirst hmode hstart
  have hb := straight_create hsecond hmode hstart
  obtain ⟨rules, reference, hfind, href, rfl⟩ := create_eq_ok hfirst
  obtain ⟨_, _, hfind', href', rfl⟩ := create_eq_ok hsecond
  obtain rfl : Rules.ofMode puzzle.mode = rules := Option.some.inj (hmode.symm.trans hfind)
  cases hfind.symm.trans hfind'
  cases href.symm.trans href'
  obtain ⟨hstatus, houtcome, hstate, herror⟩ :=
    ha.same (passesOver_ofMode puzzle.mode) hstart padding hblocks hb
  refine ⟨hstatus, houtcome, hstate, herror.imp_right ?_⟩
  rintro ⟨fault, herror, herror'⟩
  exact ⟨fault, herror, herror', padding.command_shift fault.step⟩

/-- The two lines with a block, a scan and a move between them, which a memory does not heed. -/
def paddedLines : Program :=
  ⟨[⟨none, .scan⟩, ⟨some "block", .print "a"⟩, ⟨none, .move none⟩, ⟨none, .print "b"⟩,
    ⟨none, .unknown⟩], twoLines.blockCount⟩

/-- How they come from the two lines. -/
def linesPadding : Padding Mode.math.heeds twoLines.actions paddedLines.actions :=
  .put rfl (.keep rfl (.put rfl (.keep rfl (.put rfl .nil))))

/-- A new player of the padded lines. -/
def paddedNovice : Player ManualClock :=
  { novice ManualClock.atZero with source := .always paddedLines }

theorem create_paddedNovice : create .standard blankPuzzle (.always paddedLines)
    ManualClock.atZero .default (fun _ => 12) = .ok paddedNovice := rfl

/-- Five actions end like the two that count. -/
theorem padding_makes_no_difference_lines :
    let a := (novice ManualClock.atZero).play.andThen playOut
    let b := paddedNovice.play.andThen playOut
    a.player.step = 2 ∧ b.player.step = 5 ∧ a.player.status = .won ∧
      b.player.status = a.player.status ∧ b.player.outcome = a.player.outcome ∧
      b.player.state.getD (.math ⟨.empty, []⟩) = a.player.state.getD (.math ⟨.empty, []⟩) := by
  intro a b
  obtain ⟨hstatus, houtcome, hstate, -⟩ :=
    padding_makes_no_difference (create_novice ManualClock.atZero) create_paddedNovice rfl rfl rfl
      linesPadding
  exact ⟨rfl, rfl, rfl, hstatus, houtcome, hstate⟩

end Player

end PuzzlePlayback
