import PuzzlePlayback.Calculator.Failure
import PuzzlePlayback.Proofs.Headings

/-!
# The robot stays on the floor

A robot that starts on the floor never leaves it: it walks ahead only onto a cell that is open, a
start or a goal, and bumps into anything else, be it a wall, an unknown code or the end of a row.

The program asks for the cell at wrapped coordinates. They are the whole numbers that are meant,
except beyond the ends of a word, and no grid reaches there (`FitsWords`): on one side coordinates
are negative, on the other side they are those of no cell (`Outside`). So everything can be said
of whole numbers (`codeAt?`).

Main result: `robot_stays_on_floor`.
-/

namespace PuzzlePlayback.Walk

open Calculator

variable {grid : List (List UInt8)} {puzzle : Puzzle} {robot next : Robot} {signal : Signal}

/-! ## Cells at whole numbers -/

/-- The code of the cell at whole coordinates, if there is one. -/
def codeAt? (grid : List (List UInt8)) (x y : Int) : Option UInt8 :=
  if x < 0 ∨ y < 0 then none else grid[y.toNat]?.bind (·[x.toNat]?)

/-- An open cell, a start or a goal. -/
def IsFloor (code : UInt8) : Prop := code = 1 ∨ code = 2 ∨ code = 3

/-- There is floor at these coordinates. -/
def FloorAt (grid : List (List UInt8)) (x y : Int) : Prop :=
  ∃ code, codeAt? grid x y = some code ∧ IsFloor code

/-- All rows, and all cells of each, are numbered by positive words. -/
structure FitsWords (grid : List (List UInt8)) : Prop where
  rows : grid.length ≤ Int32.maxValue.toInt
  cells : ∀ row ∈ grid, row.length ≤ Int32.maxValue.toInt

theorem cellAt_eq (grid : List (List UInt8)) (x y : Int32) :
    cellAt grid x y = (codeAt? grid x.toInt y.toInt).elim .wall .ofCode := by
  have hsign : (x < 0 ∨ y < 0) ↔ (x.toInt < 0 ∨ y.toInt < 0) :=
    or_congr Int32.lt_iff_toInt_lt Int32.lt_iff_toInt_lt
  unfold cellAt codeAt?
  by_cases h : x < 0 ∨ y < 0
  · rw [if_pos h, if_pos (hsign.1 h)]
    rfl
  · rw [if_neg h, if_neg (fun hneg => h (hsign.2 hneg))]
    cases hrow : grid[y.toInt.toNat]? with
    | none => rfl
    | some row =>
      dsimp only [Option.bind_some]
      cases row[x.toInt.toNat]? <;> rfl

theorem ofCode_eq_wall_iff (code : UInt8) : Cell.ofCode code = .wall ↔ ¬IsFloor code := by
  unfold Cell.ofCode IsFloor startCode
  split_ifs with hfree hgoal
  · simp [hfree, ← or_assoc]
  · simp [hgoal]
  · simp [hgoal, hfree]

theorem ofCode_eq_goal_iff (code : UInt8) : Cell.ofCode code = .goal ↔ code = 3 := by
  unfold Cell.ofCode startCode
  split_ifs with hfree hgoal
  · obtain rfl | rfl := hfree <;> decide
  · simp [hgoal]
  · simp [hgoal]

/-! ## Ends of the word -/

/-- No cell has this number. -/
def Outside (n : Int) : Prop := n < 0 ∨ Int32.maxValue.toInt ≤ n

theorem codeAt?_eq_none (h : FitsWords grid) {x y : Int} (hout : Outside x ∨ Outside y) :
    codeAt? grid x y = none := by
  unfold codeAt?
  split
  · rfl
  · next hsign =>
    cases hrow : grid[y.toNat]? with
    | none => rfl
    | some row =>
      have hy : y.toNat < grid.length := (List.getElem?_eq_some_iff.1 hrow).1
      have hcells := h.cells row (List.mem_of_getElem? hrow)
      have hrows := h.rows
      refine List.getElem?_eq_none ?_
      unfold Outside at hout
      omega

/-- One cell on, the number of a cell wraps around only where there are no cells. -/
theorem toInt_add_eq_or_outside (c : Int32) {d : Int} (hd : d.natAbs ≤ 1) :
    (c + .ofInt d).toInt = c.toInt + d ∨
      Outside (c + .ofInt d).toInt ∧ Outside (c.toInt + d) := by
  have hlow := Int32.le_toInt c
  have hhigh := Int32.toInt_lt c
  have hsum : (c + .ofInt d).toInt = (c.toInt + d).bmod Int32.size := by
    rw [← Int32.toInt_ofInt, Int32.ofInt_add, Int32.ofInt_toInt]
  have hmax : Int32.maxValue.toInt = 2147483647 := rfl
  unfold Outside
  rw [hsum, hmax, Int.bmod_def]
  unfold Int32.size
  omega

theorem toInt_add_of_not_outside (c : Int32) {d : Int} (hd : d.natAbs ≤ 1)
    (h : ¬Outside (c.toInt + d)) : (c + .ofInt d).toInt = c.toInt + d :=
  (toInt_add_eq_or_outside c hd).resolve_right fun hout => h hout.2

theorem natAbs_compass (turns : Int) :
    (compass turns).1.natAbs + (compass turns).2.natAbs = 1 := by
  unfold compass
  split_ifs <;> rfl

/-! ## A step in whole numbers -/

/-- The cell that the program asks for is the one ahead in whole numbers. -/
theorem cellAt_ahead (h : FitsWords grid) (robot : Robot) (turns : Int) :
    cellAt grid (robot.x + .ofInt (compass turns).1) (robot.y + .ofInt (compass turns).2) =
      (codeAt? grid (robot.x.toInt + (compass turns).1)
        (robot.y.toInt + (compass turns).2)).elim .wall .ofCode := by
  have hone := natAbs_compass turns
  rw [cellAt_eq]
  rcases toInt_add_eq_or_outside robot.x (d := (compass turns).1) (by omega) with hx | ⟨hx, hx'⟩
  · rcases toInt_add_eq_or_outside robot.y (d := (compass turns).2) (by omega) with hy | ⟨hy, hy'⟩
    · rw [hx, hy]
    · rw [codeAt?_eq_none h (.inr hy), codeAt?_eq_none h (.inr hy')]
  · rw [codeAt?_eq_none h (.inl hx), codeAt?_eq_none h (.inl hx')]

theorem elim_eq_wall_iff (grid : List (List UInt8)) (x y : Int) :
    (codeAt? grid x y).elim .wall .ofCode = Cell.wall ↔ ¬FloorAt grid x y := by
  unfold FloorAt
  cases codeAt? grid x y with
  | none => simp
  | some code => simp [ofCode_eq_wall_iff]

theorem elim_eq_goal_iff (grid : List (List UInt8)) (x y : Int) :
    (codeAt? grid x y).elim .wall .ofCode = Cell.goal ↔ codeAt? grid x y = some 3 := by
  cases codeAt? grid x y with
  | none => simp
  | some code => simp [ofCode_eq_goal_iff]

/-- All that a walk ahead can come to, in whole numbers. -/
structure WalksAhead (grid : List (List UInt8)) (robot next : Robot) (signal : Signal)
    (dx dy : Int) : Prop where
  /-- The run is lost exactly if there is no floor ahead. -/
  lost_iff : signal = .lost ↔ ¬FloorAt grid (robot.x.toInt + dx) (robot.y.toInt + dy)
  /-- It is won exactly if there is a goal ahead. -/
  win_iff : signal = .win ↔ codeAt? grid (robot.x.toInt + dx) (robot.y.toInt + dy) = some 3
  stays : signal = .lost → next = robot
  enters : signal ≠ .lost → next.x.toInt = robot.x.toInt + dx ∧
    next.y.toInt = robot.y.toInt + dy ∧ next.dir = robot.dir

/-- Where there is floor ahead, its coordinates are words. -/
theorem toInt_ahead (h : FitsWords grid) (robot : Robot) (turns : Int)
    (hfloor : FloorAt grid (robot.x.toInt + (compass turns).1)
      (robot.y.toInt + (compass turns).2)) :
    (robot.x + .ofInt (compass turns).1).toInt = robot.x.toInt + (compass turns).1 ∧
      (robot.y + .ofInt (compass turns).2).toInt = robot.y.toInt + (compass turns).2 := by
  obtain ⟨code, hcode, -⟩ := hfloor
  have hone := natAbs_compass turns
  have hinside : ¬(Outside (robot.x.toInt + (compass turns).1) ∨
      Outside (robot.y.toInt + (compass turns).2)) := by
    intro hout
    cases (codeAt?_eq_none h hout).symm.trans hcode
  exact ⟨toInt_add_of_not_outside _ (by omega) (mt .inl hinside),
    toInt_add_of_not_outside _ (by omega) (mt .inr hinside)⟩

theorem walksAhead (h : FitsWords puzzle.grid) (robot : Robot) :
    WalksAhead puzzle.grid robot (advance robot puzzle).1 (advance robot puzzle).2
      (compass robot.dir.toInt).1 (compass robot.dir.toInt).2 := by
  have hadvanced := advanced robot puzzle
  have hlost := hadvanced.lost_iff
  have hwin := hadvanced.win_iff
  rw [cellAt_ahead h, elim_eq_wall_iff] at hlost
  rw [cellAt_ahead h, elim_eq_goal_iff] at hwin
  refine ⟨hlost, hwin, hadvanced.stays, fun hsignal => ?_⟩
  have hfloor := not_not.1 (mt hlost.2 hsignal)
  obtain ⟨hx, hy⟩ := toInt_ahead h robot robot.dir.toInt hfloor
  rw [hadvanced.enters hsignal]
  exact ⟨hx, hy, rfl⟩

theorem act_of_not_move {action : Action} (hcommand : ∀ dist, action.command ≠ .move dist)
    (robot : Robot) (puzzle : Puzzle) :
    (act robot action puzzle).1.x = robot.x ∧ (act robot action puzzle).1.y = robot.y ∧
      (act robot action puzzle).2 = .running := by
  obtain ⟨id, command⟩ := action
  cases command with
  | move dist => exact absurd rfl (hcommand dist)
  | _ => exact ⟨rfl, rfl, rfl⟩

theorem act_of_move {action : Action} {dist : Option Float} (hcommand : action.command = .move dist)
    (robot : Robot) (puzzle : Puzzle) : act robot action puzzle = advance robot puzzle := by
  rw [act, hcommand]

/-! ## A run stays on the floor -/

theorem floorAt_act (h : FitsWords puzzle.grid)
    (hfloor : FloorAt puzzle.grid robot.x.toInt robot.y.toInt) (action : Action) :
    FloorAt puzzle.grid (act robot action puzzle).1.x.toInt
      (act robot action puzzle).1.y.toInt := by
  by_cases hmove : ∃ dist, action.command = .move dist
  · obtain ⟨dist, hdist⟩ := hmove
    have hwalks := walksAhead h robot
    rw [act_of_move hdist]
    by_cases hlost : (advance robot puzzle).2 = .lost
    · rw [hwalks.stays hlost]
      exact hfloor
    · obtain ⟨hx, hy, -⟩ := hwalks.enters hlost
      rw [hx, hy]
      exact not_not.1 (mt hwalks.lost_iff.2 hlost)
  · obtain ⟨hx, hy, -⟩ := act_of_not_move (not_exists.1 hmove) robot puzzle
    rw [hx, hy]
    exact hfloor

theorem floorAt_walk (h : FitsWords puzzle.grid)
    (hfloor : FloorAt puzzle.grid robot.x.toInt robot.y.toInt) (actions : List Action) :
    FloorAt puzzle.grid (walk puzzle robot actions).x.toInt
      (walk puzzle robot actions).y.toInt := by
  induction actions using List.reverseRecOn with
  | nil => exact hfloor
  | append_singleton actions action ih =>
    rw [walk_append]
    exact floorAt_act h ih action

/-- A start cell is found where it is. -/
theorem startCell_eq_some {rows : List (List UInt8)} {top x y : Nat}
    (h : startCell top rows = some (x, y)) :
    top ≤ y ∧ ∃ row, rows[y - top]? = some row ∧ row[x]? = some startCode := by
  induction rows generalizing top with
  | nil => cases h
  | cons row rest ih =>
    rw [startCell] at h
    split at h
    · next found hfound =>
      cases h
      obtain ⟨hlt, hcode, -⟩ := List.findIdx?_eq_some_iff_getElem.1 hfound
      refine ⟨Nat.le_refl _, row, by simp, ?_⟩
      rw [List.getElem?_eq_getElem hlt, eq_of_beq hcode]
    · obtain ⟨htop, other, hrow, hcode⟩ := ih h
      refine ⟨by omega, other, ?_, hcode⟩
      rw [show y - top = y - (top + 1) + 1 by omega, List.getElem?_cons_succ]
      exact hrow

theorem toInt_ofNat_of_lt {n length : Nat} (hlength : length ≤ Int32.maxValue.toInt)
    (h : n < length) : (Int32.ofNat n).toInt = n := by
  have hmax : Int32.maxValue.toInt = 2147483647 := rfl
  exact Int32.toInt_ofNat_of_lt (by omega)

/-- A robot that is not put elsewhere starts on a start cell. -/
theorem codeAt?_start (h : FitsWords puzzle.grid) (hnone : puzzle.start = none)
    (hstart : rules.startState puzzle = .ok (.maze robot)) :
    codeAt? puzzle.grid robot.x.toInt robot.y.toInt = some startCode := by
  obtain ⟨t, ht, hstate⟩ := map_eq_ok hstart
  obtain ⟨first, hfirst, ht⟩ := bind_eq_ok ht
  cases ht
  cases hstate
  change start puzzle = .ok robot at hfirst
  unfold start at hfirst
  rw [hnone] at hfirst
  split at hfirst
  · cases hfirst
  · dsimp only at hfirst
    split at hfirst
    · next x y hfound =>
      cases hfirst
      obtain ⟨-, row, hrow, hcode⟩ := startCell_eq_some hfound
      rw [Nat.sub_zero] at hrow
      have hy : y < puzzle.grid.length := (List.getElem?_eq_some_iff.1 hrow).1
      have hx : x < row.length := (List.getElem?_eq_some_iff.1 hcode).1
      rw [toInt_ofNat_of_lt h.rows hy,
        toInt_ofNat_of_lt (h.cells row (List.mem_of_getElem? hrow)) hx]
      unfold codeAt?
      rw [if_neg (by omega), Int.toNat_natCast, Int.toNat_natCast, hrow]
      exact hcode
    · cases hfirst

/-- **The robot stays on the floor.** Take a maze whose cells are all numbered by words; its rows
may differ in length, and cells may have any codes. A robot that starts on a start cell of the
grid, or is put on an open cell or a goal, stands on one after any actions, which never fail.

An action other than a walk ahead leaves it where it is, and the run goes on. A walk ahead loses
exactly if the next cell in the direction of the heading is none of these, or is off the grid; then
the robot is as before. It wins exactly if that cell is a goal. Unless it loses, the robot is on
that cell afterwards, and it looks the same way. -/
theorem robot_stays_on_floor (hgrid : FitsWords puzzle.grid) :
    (∀ first, puzzle.start = none → rules.startState puzzle = .ok (.maze first) →
      codeAt? puzzle.grid first.x.toInt first.y.toInt = some 2) ∧
    (∀ first, FloorAt puzzle.grid first.x.toInt first.y.toInt → ∀ actions,
      ∃ robot, replayFrom rules puzzle (.maze first) 0 actions = .ok (.maze robot) ∧
        (rules.startState puzzle = .ok (.maze first) →
          replay rules puzzle actions = .ok (.maze robot)) ∧
        FloorAt puzzle.grid robot.x.toInt robot.y.toInt) ∧
    ∀ prior robot, robotOf prior puzzle = .ok robot → ∀ action, ∃ next signal,
      rules.step prior (some action) puzzle = .ok ⟨.maze next, signal⟩ ∧
      ((∀ dist, action.command ≠ .move dist) →
        next.x = robot.x ∧ next.y = robot.y ∧ signal = .running) ∧
      ∀ dist, action.command = .move dist →
        let (dx, dy) := compass robot.dir.toInt
        dx.natAbs + dy.natAbs = 1 ∧ WalksAhead puzzle.grid robot next signal dx dy := by
  refine ⟨fun first hnone hstart => codeAt?_start hgrid hnone hstart,
    fun first hfloor actions => ?_, fun prior robot hrobot action => ?_⟩
  · have hplayed := replayFrom_eq_walk puzzle first 0 actions
    refine ⟨_, hplayed, fun hstart => ?_, floorAt_walk hgrid hfloor actions⟩
    rw [replay_eq_replayFrom hstart, hplayed]
  · have hstep : rules.step prior (some action) puzzle =
        .ok ⟨.maze (act robot action puzzle).1, (act robot action puzzle).2⟩ := by
      show step prior (some action) puzzle = _
      rw [step, hrobot]
      rfl
    refine ⟨_, _, hstep, fun hother => act_of_not_move hother robot puzzle, fun dist hmove => ?_⟩
    rw [act_of_move hmove]
    exact ⟨natAbs_compass robot.dir.toInt, walksAhead hgrid robot⟩

/-- Rows of different lengths and a code that means nothing. -/
def ragged : Puzzle where
  mode := .maze
  grid := [[0, 2, 1], [9], [], [3, 1, 1, 1]]

/-- The robot starts in the first row and is on floor after a walk ahead and one into nothing. -/
theorem robot_stays_on_floor_ragged :
    FitsWords ragged.grid ∧ rules.startState ragged = .ok (.maze ⟨1, 0, 0⟩) ∧
    ∃ robot, replay rules ragged [{ command := .move none }, { command := .move none }] =
        .ok (.maze robot) ∧ FloorAt ragged.grid robot.x.toInt robot.y.toInt := by
  have hgrid : FitsWords ragged.grid := ⟨by decide, by decide⟩
  have hstart : rules.startState ragged = .ok (.maze ⟨1, 0, 0⟩) := rfl
  obtain ⟨hcode, hfloor, -⟩ := robot_stays_on_floor hgrid
  obtain ⟨robot, -, hreplay, hrobot⟩ := hfloor ⟨1, 0, 0⟩ ⟨2, hcode _ rfl hstart, .inr (.inl rfl)⟩
    [{ command := .move none }, { command := .move none }]
  exact ⟨hgrid, hstart, robot, hreplay hstart, hrobot⟩

end PuzzlePlayback.Walk
