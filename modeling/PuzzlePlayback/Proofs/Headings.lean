import Mathlib.Data.List.Induction
import PuzzlePlayback.Replay
import PuzzlePlayback.World.Walk

/-!
# Headings survive any number of turns

The heading of a robot counts quarter turns and is never reduced, so a run can carry it over either
end of its word. A word wraps around at a multiple of four: the quarter turn that is left is the
one of the count in unbounded integers, and a robot walks where that count points (`compass`).

Robots in the same place that look the same way report the same and stay so, whatever their
headings count (`Alike`). So turns that cancel out can be put in anywhere.

Main result: `headings_survive_turns`.
-/

namespace PuzzlePlayback.Walk

variable {puzzle : Puzzle} {a b robot : Robot}

/-! ## The compass -/

/-- One cell ahead, by the number of quarter turns to the right after looking east: 0 is east, 1
south, 2 west and 3 north. -/
def compass (turns : Int) : Int × Int :=
  if turns % 4 = 0 then (1, 0)
  else if turns % 4 = 1 then (0, 1)
  else if turns % 4 = 2 then (-1, 0)
  else (0, -1)

theorem compass_congr {turns other : Int} (h : turns % 4 = other % 4) :
    compass turns = compass other := by
  rw [compass, compass, h]

theorem bmod_emod_four (turns : Int) : turns.bmod Int32.size % 4 = turns % 4 := by
  have hdvd : (4 : Int) ∣ (Int32.size : Nat) := ⟨1073741824, rfl⟩
  rw [← Int.emod_emod_of_dvd _ hdvd, Int.bmod_emod, Int.emod_emod_of_dvd _ hdvd]

/-- A robot looks where the count of its turns points. -/
theorem ahead_eq_compass (dir : Int32) :
    ahead dir = (Int32.ofInt (compass dir.toInt).1, Int32.ofInt (compass dir.toInt).2) := by
  have hlow := Int.emod_nonneg dir.toInt (show (4 : Int) ≠ 0 by decide)
  have hhigh := Int.emod_lt_of_pos dir.toInt (show (0 : Int) < 4 by decide)
  unfold ahead quarterTurn compass
  obtain h | h | h | h : dir.toInt % 4 = 0 ∨ dir.toInt % 4 = 1 ∨ dir.toInt % 4 = 2 ∨
      dir.toInt % 4 = 3 := by omega
  all_goals
    rw [h]
    rfl

/-! ## One step -/

/-- All that a walk to a cell can come to. -/
inductive Advanced (grid : List (List UInt8)) (robot : Robot) (x y : Int32) : Robot → Signal → Prop
  | bumped : cellAt grid x y = .wall → Advanced grid robot x y robot .lost
  | arrived : cellAt grid x y = .goal → Advanced grid robot x y { robot with x, y } .win
  | moved : cellAt grid x y = .free → Advanced grid robot x y { robot with x, y } .running

/-- A robot walks to the cell that its heading points to. -/
theorem advanced (robot : Robot) (puzzle : Puzzle) :
    Advanced puzzle.grid robot (robot.x + .ofInt (compass robot.dir.toInt).1)
      (robot.y + .ofInt (compass robot.dir.toInt).2) (advance robot puzzle).1
      (advance robot puzzle).2 := by
  unfold advance
  rw [ahead_eq_compass]
  dsimp only
  split
  · next hcell => exact .bumped hcell
  · next hcell => exact .arrived hcell
  · next hcell => exact .moved hcell

namespace Advanced

variable {grid : List (List UInt8)} {x y : Int32} {next : Robot} {signal : Signal}

theorem lost_iff (h : Advanced grid robot x y next signal) :
    signal = .lost ↔ cellAt grid x y = .wall := by
  cases h with
  | bumped hcell | arrived hcell | moved hcell => simp [hcell]

theorem win_iff (h : Advanced grid robot x y next signal) :
    signal = .win ↔ cellAt grid x y = .goal := by
  cases h with
  | bumped hcell | arrived hcell | moved hcell => simp [hcell]

theorem stays (h : Advanced grid robot x y next signal) (hsignal : signal = .lost) :
    next = robot := by
  cases h with
  | bumped _ => rfl
  | arrived _ | moved _ => cases hsignal

theorem enters (h : Advanced grid robot x y next signal) (hsignal : signal ≠ .lost) :
    next = { robot with x, y } := by
  cases h with
  | bumped _ => exact absurd rfl hsignal
  | arrived _ | moved _ => rfl

theorem dir_eq (h : Advanced grid robot x y next signal) : next.dir = robot.dir := by
  cases h <;> rfl

end Advanced

theorem step_maze (puzzle : Puzzle) (robot : Robot) (action : Action) :
    rules.step (some (.maze robot)) (some action) puzzle =
      .ok ⟨.maze (act robot action puzzle).1, (act robot action puzzle).2⟩ := rfl

/-! ## Walking is a fold -/

/-- The robot after some actions. -/
def walk (puzzle : Puzzle) (robot : Robot) (actions : List Action) : Robot :=
  actions.foldl (fun robot action => (act robot action puzzle).1) robot

theorem walk_append (puzzle : Puzzle) (robot : Robot) (first second : List Action) :
    walk puzzle robot (first ++ second) = walk puzzle (walk puzzle robot first) second :=
  List.foldl_append

theorem act_scan {action : Action} (h : action.isScan = true) (robot : Robot) :
    (act robot action puzzle).1 = robot := by
  obtain ⟨id, command⟩ := action
  cases command with
  | scan => rfl
  | _ => cases h

/-- Actions never fail in a maze. -/
theorem replayFrom_eq_walk (puzzle : Puzzle) (robot : Robot) (index : Nat)
    (actions : List Action) :
    replayFrom rules puzzle (.maze robot) index actions =
      .ok (.maze (walk puzzle robot actions)) :=
  replayFrom_eq_foldl (fun _ _ h => act_scan h _)
    (fun robot action => ⟨_, step_maze puzzle robot action⟩) robot index actions

/-! ## Counting turns -/

/-- The action turns left. -/
def isLeft (action : Action) : Bool :=
  match action.command with
  | .turnLeft => true
  | _ => false

/-- The action turns right. -/
def isRight (action : Action) : Bool :=
  match action.command with
  | .turnRight => true
  | _ => false

/-- Quarter turns to the right, less those to the left. -/
def netTurns (actions : List Action) : Int := actions.countP isRight - actions.countP isLeft

theorem dir_act (robot : Robot) (action : Action) (puzzle : Puzzle) :
    (act robot action puzzle).1.dir = robot.dir + Int32.ofInt (netTurns [action]) := by
  obtain ⟨id, command⟩ := action
  cases command with
  | move dist => exact (advanced robot puzzle).dir_eq.trans (Int32.add_zero _).symm
  | turnLeft => exact Int32.sub_eq_add_neg _ _
  | turnRight => rfl
  | _ => exact (Int32.add_zero _).symm

theorem netTurns_append (first second : List Action) :
    netTurns (first ++ second) = netTurns first + netTurns second := by
  unfold netTurns
  rw [List.countP_append, List.countP_append]
  omega

/-- The heading counts the turns, wrapping around. -/
theorem dir_walk (puzzle : Puzzle) (robot : Robot) (actions : List Action) :
    (walk puzzle robot actions).dir = Int32.ofInt (robot.dir.toInt + netTurns actions) := by
  induction actions using List.reverseRecOn with
  | nil =>
    show robot.dir = Int32.ofInt (robot.dir.toInt + 0)
    rw [Int.add_zero, Int32.ofInt_toInt]
  | append_singleton actions action ih =>
    rw [walk_append, netTurns_append, ← Int.add_assoc, Int32.ofInt_add, ← ih]
    exact dir_act _ action puzzle

theorem toInt_dir_walk (puzzle : Puzzle) (robot : Robot) (actions : List Action) :
    (walk puzzle robot actions).dir.toInt =
      (robot.dir.toInt + netTurns actions).bmod Int32.size := by
  rw [dir_walk, Int32.toInt_ofInt]

theorem compass_dir_walk (puzzle : Puzzle) (robot : Robot) (actions : List Action) :
    compass (walk puzzle robot actions).dir.toInt =
      compass (robot.dir.toInt + netTurns actions) := by
  rw [toInt_dir_walk]
  exact compass_congr (bmod_emod_four _)

/-! ## Robots that look the same way -/

/-- Two robots are in the same place and look the same way. -/
structure Alike (a b : Robot) : Prop where
  x_eq : a.x = b.x
  y_eq : a.y = b.y
  way_eq : a.dir.toInt % 4 = b.dir.toInt % 4

/-- They find the same ahead and report the same. -/
theorem Alike.advance (h : Alike a b) (puzzle : Puzzle) :
    Alike (advance a puzzle).1 (advance b puzzle).1 ∧
      (Walk.advance a puzzle).2 = (Walk.advance b puzzle).2 := by
  have hahead : ahead a.dir = ahead b.dir := by
    rw [ahead_eq_compass, ahead_eq_compass, compass_congr h.way_eq]
  unfold Walk.advance
  rw [hahead, h.x_eq, h.y_eq]
  dsimp only
  split
  · exact ⟨h, rfl⟩
  · exact ⟨⟨rfl, rfl, h.way_eq⟩, rfl⟩
  · exact ⟨⟨rfl, rfl, h.way_eq⟩, rfl⟩

theorem Alike.act (h : Alike a b) (action : Action) (puzzle : Puzzle) :
    Alike (act a action puzzle).1 (act b action puzzle).1 ∧
      (Walk.act a action puzzle).2 = (Walk.act b action puzzle).2 := by
  have hway (robot : Robot) : (Walk.act robot action puzzle).1.dir.toInt % 4 =
      (robot.dir.toInt + netTurns [action]) % 4 := by
    rw [dir_act, ← bmod_emod_four (_ + _), ← Int32.toInt_ofInt, Int32.ofInt_add, Int32.ofInt_toInt]
  have hways := h.way_eq
  obtain ⟨id, command⟩ := action
  cases command with
  | move dist => exact h.advance puzzle
  | _ =>
    refine ⟨⟨h.x_eq, h.y_eq, ?_⟩, rfl⟩
    rw [hway, hway]
    omega

theorem Alike.walk (h : Alike a b) (puzzle : Puzzle) (actions : List Action) :
    Alike (walk puzzle a actions) (walk puzzle b actions) := by
  induction actions using List.reverseRecOn with
  | nil => exact h
  | append_singleton actions action ih =>
    rw [walk_append, walk_append]
    exact (ih.act action puzzle).1

/-! ## Turns that cancel out -/

/-- Turns that cancel out: four equal ones, or one to each side. -/
inductive CancelOut : List Action → Prop
  | lefts {a b c d : Action} : isLeft a = true → isLeft b = true → isLeft c = true →
      isLeft d = true → CancelOut [a, b, c, d]
  | rights {a b c d : Action} : isRight a = true → isRight b = true → isRight c = true →
      isRight d = true → CancelOut [a, b, c, d]
  | leftRight {a b : Action} : isLeft a = true → isRight b = true → CancelOut [a, b]
  | rightLeft {a b : Action} : isRight a = true → isLeft b = true → CancelOut [a, b]

theorem netTurns_cons_of_isLeft {action : Action} (h : isLeft action = true)
    (rest : List Action) : netTurns (action :: rest) = -1 + netTurns rest := by
  refine (netTurns_append [action] rest).trans (congrArg (· + netTurns rest) ?_)
  obtain ⟨id, command⟩ := action
  cases command with
  | turnLeft => rfl
  | _ => cases h

theorem netTurns_cons_of_isRight {action : Action} (h : isRight action = true)
    (rest : List Action) : netTurns (action :: rest) = 1 + netTurns rest := by
  refine (netTurns_append [action] rest).trans (congrArg (· + netTurns rest) ?_)
  obtain ⟨id, command⟩ := action
  cases command with
  | turnRight => rfl
  | _ => cases h

theorem CancelOut.isTurn {turns : List Action} (h : CancelOut turns) :
    ∀ action ∈ turns, isLeft action = true ∨ isRight action = true := by
  cases h <;> simp_all

theorem CancelOut.netTurns_emod {turns : List Action} (h : CancelOut turns) :
    netTurns turns % 4 = 0 := by
  cases h with
  | lefts ha hb hc hd =>
    rw [netTurns_cons_of_isLeft ha, netTurns_cons_of_isLeft hb, netTurns_cons_of_isLeft hc,
      netTurns_cons_of_isLeft hd]
    rfl
  | rights ha hb hc hd =>
    rw [netTurns_cons_of_isRight ha, netTurns_cons_of_isRight hb, netTurns_cons_of_isRight hc,
      netTurns_cons_of_isRight hd]
    rfl
  | leftRight ha hb =>
    rw [netTurns_cons_of_isLeft ha, netTurns_cons_of_isRight hb]
    rfl
  | rightLeft ha hb =>
    rw [netTurns_cons_of_isRight ha, netTurns_cons_of_isLeft hb]
    rfl

/-- Turning does not move the robot. -/
theorem position_walk {turns : List Action}
    (h : ∀ action ∈ turns, isLeft action = true ∨ isRight action = true) (puzzle : Puzzle)
    (robot : Robot) :
    (walk puzzle robot turns).x = robot.x ∧ (walk puzzle robot turns).y = robot.y := by
  induction turns using List.reverseRecOn with
  | nil => exact ⟨rfl, rfl⟩
  | append_singleton turns turn ih =>
    obtain ⟨hx, hy⟩ := ih fun action haction => h action (List.mem_append_left _ haction)
    have hturn := h turn (by simp)
    rw [walk_append]
    obtain ⟨id, command⟩ := turn
    cases command with
    | turnLeft => exact ⟨hx, hy⟩
    | turnRight => exact ⟨hx, hy⟩
    | _ => obtain hturn | hturn := hturn <;> cases hturn

theorem CancelOut.alike {turns : List Action} (h : CancelOut turns) (puzzle : Puzzle)
    (robot : Robot) : Alike (walk puzzle robot turns) robot := by
  obtain ⟨hx, hy⟩ := position_walk h.isTurn puzzle robot
  refine ⟨hx, hy, ?_⟩
  have hnet := h.netTurns_emod
  rw [toInt_dir_walk, bmod_emod_four]
  omega

/-- **Headings survive any number of turns.** Wherever a robot stands and looks, also at the ends
of the word, actions never fail. After them its heading is the one before, plus the turns to the
right, less those to the left, wrapped around to a word; and a walk that follows goes to the cell
that this number of quarter turns points to, although it is not wrapped.

So turns that cancel out make no difference anywhere. While they last the robot stays where it is,
and after any further actions it is where it would be without them and reports the same for the
next action.

A replay takes the actions from the robot at the start of the puzzle. -/
theorem headings_survive_turns (puzzle : Puzzle) (first : Robot) (actions : List Action) :
    ∃ robot, replayFrom rules puzzle (.maze first) 0 actions = .ok (.maze robot) ∧
      (rules.startState puzzle = .ok (.maze first) →
        replay rules puzzle actions = .ok (.maze robot)) ∧
      let turns : Int := first.dir.toInt + actions.countP isRight - actions.countP isLeft
      robot.dir.toInt = turns.bmod Int32.size ∧
      (∀ id dist, ∃ next signal,
        rules.step (some (.maze robot)) (some ⟨id, .move dist⟩) puzzle =
          .ok ⟨.maze next, signal⟩ ∧
        Advanced puzzle.grid robot (robot.x + .ofInt (compass turns).1)
          (robot.y + .ofInt (compass turns).2) next signal) ∧
      ∀ extra rest, CancelOut extra →
        (∀ part, part <+: extra → ∃ turning,
          replayFrom rules puzzle (.maze first) 0 (actions ++ part) = .ok (.maze turning) ∧
          turning.x = robot.x ∧ turning.y = robot.y) ∧
        ∃ plain turned,
          replayFrom rules puzzle (.maze first) 0 (actions ++ rest) = .ok (.maze plain) ∧
          replayFrom rules puzzle (.maze first) 0 (actions ++ (extra ++ rest)) =
            .ok (.maze turned) ∧
          turned.x = plain.x ∧ turned.y = plain.y ∧
          ∀ action, (rules.step (some (.maze turned)) (some action) puzzle).map (·.signal) =
            (rules.step (some (.maze plain)) (some action) puzzle).map (·.signal) := by
  have hplayed (actions : List Action) := replayFrom_eq_walk puzzle first 0 actions
  have hnet : first.dir.toInt + actions.countP isRight - actions.countP isLeft =
      first.dir.toInt + netTurns actions := Int.add_sub_assoc _ _ _
  refine ⟨_, hplayed actions, fun hstart => ?_, ?_⟩
  · rw [replay_eq_replayFrom hstart, hplayed]
  intro turns
  refine ⟨?_, fun id dist => ?_, fun extra rest hextra => ⟨fun part hpart => ?_, ?_⟩⟩
  · rw [toInt_dir_walk, ← hnet]
  · have hadvanced := advanced (walk puzzle first actions) puzzle
    rw [compass_dir_walk, ← hnet] at hadvanced
    exact ⟨_, _, rfl, hadvanced⟩
  · refine ⟨_, hplayed _, ?_⟩
    rw [walk_append]
    exact position_walk (fun action haction => hextra.isTurn action (hpart.subset haction)) puzzle _
  · have halike : Alike (walk puzzle first (actions ++ (extra ++ rest)))
        (walk puzzle first (actions ++ rest)) := by
      rw [walk_append, walk_append, walk_append]
      exact (hextra.alike puzzle _).walk puzzle rest
    refine ⟨_, _, hplayed _, hplayed _, halike.x_eq, halike.y_eq, fun action => ?_⟩
    rw [step_maze, step_maze]
    exact congrArg Except.ok (halike.act action puzzle).2

/-- One turn to the right carries the greatest heading, which is north, to the least one, which is
east. -/
example : walk { mode := .maze } ⟨0, 0, Int32.maxValue⟩ [{ command := .turnRight }] =
      ⟨0, 0, Int32.minValue⟩ ∧
    compass Int32.maxValue.toInt = (0, -1) ∧ compass Int32.minValue.toInt = (1, 0) := by
  decide

end PuzzlePlayback.Walk
