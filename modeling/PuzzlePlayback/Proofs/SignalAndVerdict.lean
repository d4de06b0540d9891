import PuzzlePlayback.Proofs.SameSolutions

/-!
# Signals agree with the verdict

Success is tested twice. The signal of an action says whether the action has won, and the verdict
is given on the state that it leads to. The two look at different things: a robot is told what cell
it enters, and its verdict is about the cell that it stands on; the solver signals what its
polynomials show, and its verdict is about their texts, read again.

For the solver the bridge is `Written.solvedWith_iff`. Texts of polynomials are read as these
polynomials or, beyond the degrees of the reader, not at all, and sides that show a solution are
never beyond it. `Showing` says all that an operation can come to in these terms, and both the
signal and the verdict are read off it. Drawing and computing only ever signal that the run goes on.

Main result: `signal_agrees_with_verdict`.
-/

namespace PuzzlePlayback

open Calculator

variable {puzzle : Puzzle} {action : Action} {prior : Option World} {t : Transition}

/-! ## The maze -/

namespace Walk

/-- The verdict is about the cell where the robot stands, which is the one it has entered. -/
theorem verdict_advance {robot next : Robot} {signal : Signal}
    (h : advance robot puzzle = (next, signal)) (hsignal : signal ≠ .lost)
    (reference : Option Reference) :
    solved (.maze next) puzzle reference = .ok (signal == .win) := by
  unfold advance at h
  dsimp only at h
  split at h
  · cases h
    exact absurd rfl hsignal
  · next hcell =>
    cases h
    rw [solved, hcell]
    rfl
  · next hcell =>
    cases h
    rw [solved, hcell]
    rfl

theorem verdict_act {robot next : Robot} {signal : Signal}
    (h : act robot action puzzle = (next, signal)) (reference : Option Reference) :
    (signal = .win → solved (.maze next) puzzle reference = .ok true) ∧
    (∀ dist, action.command = .move dist → signal = .running →
      solved (.maze next) puzzle reference = .ok false) := by
  unfold act at h
  split at h
  · constructor
    · rintro rfl
      exact verdict_advance h nofun reference
    · rintro _ _ rfl
      exact verdict_advance h nofun reference
  · next hcommand =>
    cases h
    exact ⟨nofun, fun dist hmove => by cases hcommand.symm.trans hmove⟩
  · next hcommand =>
    cases h
    exact ⟨nofun, fun dist hmove => by cases hcommand.symm.trans hmove⟩
  · next hnot _ _ =>
    cases h
    exact ⟨nofun, fun dist hmove => absurd hmove (hnot dist)⟩

theorem verdict_step (h : step prior (some action) puzzle = .ok t) (reference : Option Reference) :
    (t.signal = .win → solved t.state puzzle reference = .ok true) ∧
    (∀ dist, action.command = .move dist → t.signal = .running →
      solved t.state puzzle reference = .ok false) := by
  obtain ⟨robot, _, h⟩ := bind_eq_ok h
  cases h
  exact verdict_act rfl reference

end Walk

/-! ## Drawing and computing -/

theorem Drawing.signal_step (h : Drawing.step prior (some action) puzzle = .ok t) :
    t.signal = .running := by
  obtain ⟨turtle, _, h⟩ := bind_eq_ok h
  cases h
  rfl

theorem Sandbox.signal_step (h : Sandbox.step prior (some action) puzzle = .ok t) :
    t.signal = .running := by
  obtain ⟨memory, _, h⟩ := bind_eq_ok h
  cases h
  rfl

/-! ## The solver -/

namespace Solver

variable {authored : AuthoredEquation} {equation : Equation}

/-- The sides are read as the unknown and this value. -/
def SolvedWith (authored : AuthoredEquation) (equation : Equation) (value : Fraction) : Prop :=
  ∃ lhs rhs, readSide equation.lhs authored.unknown = .ok lhs ∧
    readSide equation.rhs authored.unknown = .ok rhs ∧ solution? lhs rhs = some value

/-- Texts of polynomials show the solution that the polynomials have. -/
theorem Written.solvedWith_iff {lhs rhs : Laurent} (h : Written authored equation lhs rhs)
    (value : Fraction) :
    SolvedWith authored equation value ↔ solution? lhs rhs = some value := by
  constructor
  · rintro ⟨l, r, hl, hr, hsolution⟩
    rw [h.lhs_eq] at hl
    rw [h.rhs_eq] at hr
    obtain rfl := eq_of_readSide_render h.lhs_within hl
    obtain rfl := eq_of_readSide_render h.rhs_within hr
    exact hsolution
  · intro hsolution
    obtain ⟨hl, hr⟩ := readSides_of_legible h (legible_of_solution hsolution)
    exact ⟨lhs, rhs, hl, hr, hsolution⟩

/-- An operation that is carried out writes polynomials again. -/
theorem written_rewritten {sides next : Sides} {operator : Operator} {operand : String}
    (hlhs : sides.lhs.Within (Expressible authored.unknown))
    (hrhs : sides.rhs.Within (Expressible authored.unknown))
    (h : attempt sides operator operand authored.unknown = .ok next) (equation : Equation)
    (found : Option Check) :
    Written authored
      { rewritten equation operator operand authored.unknown next with check := found }
      next.lhs next.rhs := by
  obtain ⟨hl, hr⟩ := within_attempt h hlhs hrhs
  exact ⟨rfl, rfl, hl, hr⟩

/-- The verdict is whether the sides show a solution, if they can be read. -/
theorem solved_eq_true_iff (hauthored : puzzle.equation = some authored)
    (reference : Option Reference) :
    solved (.equation equation) puzzle reference = .ok true ↔
      ∃ value, SolvedWith authored equation value := by
  rw [solved_eq hauthored]
  constructor
  · intro h
    obtain ⟨l, hl, h⟩ := bind_eq_ok h
    obtain ⟨r, hr, h⟩ := bind_eq_ok h
    obtain ⟨value, hvalue⟩ := Option.isSome_iff_exists.1 (Except.ok.inj h)
    exact ⟨value, l, r, hl, hr, hvalue⟩
  · rintro ⟨value, l, r, hl, hr, hvalue⟩
    rw [hl, hr]
    show Except.ok (solution? l r).isSome = _
    rw [hvalue]
    rfl

theorem reversed_eq_iff (r : Relation) : r.reversed = .eq ↔ r = .eq := by
  cases r <;> decide

/-- An operation on an equation leaves an equation, and no other leaves one. -/
theorem sign_eq_iff {sides next : Sides} {operator : Operator} {operand x : String}
    (h : attempt sides operator operand x = .ok next) : next.sign = .eq ↔ sides.sign = .eq := by
  have hscaled {p : Laurent} {sign : Relation} (hsign : scaledSign sides.sign p = .ok sign) :
      sign = .eq ↔ sides.sign = .eq := by
    rw [scaledSign_eq_ok hsign 0]
    split
    · exact reversed_eq_iff sides.sign
    · exact Iff.rfl
  unfold attempt at h
  split at h
  · cases applied_of_apply h with
    | added hboth => rw [(onBoth_eq_ok hboth).2.2]
    | subtracted hboth => rw [(onBoth_eq_ok hboth).2.2]
    | multiplied hsign _ hboth => rw [(onBoth_eq_ok hboth).2.2, hscaled hsign]
    | divided hsign hboth => rw [(onBoth_eq_ok hboth).2.2, hscaled hsign]
  · cases h

/-- All that an operation can come to, by what the next equation shows. -/
inductive Showing (authored : AuthoredEquation) (before : Equation) (operator : Operator)
    (operand : String) : Equation → Signal → Prop
  | refused : Showing authored before operator operand (record before operator operand false)
      .running
  | unsolved {next : Equation} : next.latest = some ⟨operator, operand, true⟩ →
      (next.sign = .eq ↔ before.sign = .eq) → (∀ value, ¬ SolvedWith authored next value) →
      next.check = before.check → Showing authored before operator operand next .running
  | solved {next : Equation} {value : Fraction} {result : Check} :
      next.latest = some ⟨operator, operand, true⟩ → next.sign = .eq → before.sign = .eq →
      SolvedWith authored next value → check authored value = .ok result →
      next.check = some result → Showing authored before operator operand next .win
  | bounded {next : Equation} {value : Fraction} : next.latest = some ⟨operator, operand, true⟩ →
      next.sign ≠ .eq → before.sign ≠ .eq → SolvedWith authored next value →
      next.check = before.check → Showing authored before operator operand next .win

theorem Operated.showing {lhs rhs : Laurent} {operator : Operator} {operand : String}
    {next : Equation × Signal} (hlhs : lhs.Within (Expressible authored.unknown))
    (hrhs : rhs.Within (Expressible authored.unknown))
    (h : Operated authored equation operator operand ⟨lhs, rhs, equation.sign⟩ next) :
    Showing authored equation operator operand next.1 next.2 := by
  cases h with
  | refused _ => exact .refused
  | unsolved hattempt hsolution =>
    refine .unsolved rfl (sign_eq_iff hattempt) (fun value hvalue => ?_) rfl
    have hwritten := written_rewritten hlhs hrhs hattempt equation equation.check
    cases hsolution.symm.trans ((hwritten.solvedWith_iff value).1 hvalue)
  | @solved next value result hattempt hsolution hsign hresult =>
    have hwritten := written_rewritten hlhs hrhs hattempt equation (some result)
    have hvalue := (hwritten.solvedWith_iff value).2 hsolution
    exact .solved rfl hsign ((sign_eq_iff hattempt).1 hsign) hvalue hresult rfl
  | @bounded next value hattempt hsolution hsign =>
    have hwritten := written_rewritten hlhs hrhs hattempt equation equation.check
    have hvalue := (hwritten.solvedWith_iff value).2 hsolution
    exact .bounded rfl hsign (mt (sign_eq_iff hattempt).2 hsign) hvalue rfl

theorem showing_operate {operator : Operator} {operand : String} {next : Equation × Signal}
    (hauthored : puzzle.equation = some authored)
    (h : operate equation operator operand puzzle = .ok next) :
    Showing authored equation operator operand next.1 next.2 := by
  obtain ⟨lhs, rhs, hlhs, hrhs, hoperated⟩ := operated hauthored h
  exact hoperated.showing (within_of_ofText (ofText_of_readSide hlhs))
    (within_of_ofText (ofText_of_readSide hrhs))

/-- An operation wins if it leaves a solution, and goes on if it is carried out and leaves none. -/
theorem Showing.solution {operator : Operator} {operand : String} {next : Equation}
    {signal : Signal} (h : Showing authored equation operator operand next signal) :
    (signal = .win → ∃ value, SolvedWith authored next value) ∧
    (signal = .running → next.latest = some ⟨operator, operand, true⟩ →
      ∀ value, ¬ SolvedWith authored next value) := by
  cases h with
  | refused => exact ⟨nofun, fun _ hlatest => by cases hlatest⟩
  | unsolved _ _ hnone _ => exact ⟨nofun, fun _ _ => hnone⟩
  | solved _ _ _ hvalue _ _ => exact ⟨fun _ => ⟨_, hvalue⟩, nofun⟩
  | bounded _ _ _ hvalue _ => exact ⟨fun _ => ⟨_, hvalue⟩, nofun⟩

/-- A puzzle whose operations can be played has an equation. -/
theorem exists_authored_of_operate {operator : Operator} {operand : String}
    {next : Equation × Signal} (h : operate equation operator operand puzzle = .ok next) :
    ∃ authored, puzzle.equation = some authored := by
  obtain ⟨authored, hauthored, _⟩ := bind_eq_ok h
  exact ⟨authored, equation_of_authoredOf hauthored⟩

theorem verdict_step (h : step prior (some action) puzzle = .ok t) (reference : Option Reference) :
    (t.signal = .win → solved t.state puzzle reference = .ok true) ∧
    (∀ operator value equation, action.command = .bothSides operator value →
      t.state = .equation equation → equation.latest = some ⟨operator, Text.trim value, true⟩ →
      t.signal = .running → ∀ verdict, solved t.state puzzle reference = .ok verdict →
      verdict = false) := by
  obtain ⟨equation, _, h⟩ := bind_eq_ok h
  dsimp only at h
  split at h
  · next operator value hcommand =>
    obtain ⟨⟨next, signal⟩, hnext, h⟩ := bind_eq_ok h
    cases h
    obtain ⟨authored, hauthored⟩ := exists_authored_of_operate hnext
    obtain ⟨hwin, hrunning⟩ := (showing_operate hauthored hnext).solution
    refine ⟨fun hsignal => (solved_eq_true_iff hauthored reference).2 (hwin hsignal), ?_⟩
    rintro operator' value' _ hagain ⟨⟩ hlatest hsignal verdict hverdict
    obtain ⟨rfl, rfl⟩ : operator = operator' ∧ value = value' := by
      simpa [hagain, eq_comm] using hcommand
    cases verdict with
    | false => rfl
    | true =>
      obtain ⟨shown, hshown⟩ := (solved_eq_true_iff hauthored reference).1 hverdict
      exact absurd hshown (hrunning hsignal hlatest shown)
  · next hnot =>
    cases h
    refine ⟨nofun, fun operator value equation hcommand => ?_⟩
    exact absurd (congrArg some hcommand) (hnot operator value)

end Solver

/-! ## All modes -/

/-- **Signals agree with the verdict.** Play an action in any mode, from any state. If it wins, then
the verdict on its state is success, with or without a reference. If it is a move in a maze after
which the run goes on, the verdict is none; and if it is an operation on both sides that is carried
out, after which the run goes on, the verdict is no success either, if there is one. -/
theorem signal_agrees_with_verdict {mode : Mode}
    (hstep : (Rules.ofMode mode).step prior (some action) puzzle = .ok t) :
    (t.signal = .win →
      ∀ reference, (Rules.ofMode mode).solved t.state puzzle reference = .ok true) ∧
    (mode = .maze → ∀ dist, action.command = .move dist → t.signal = .running →
      ∀ reference, (Rules.ofMode mode).solved t.state puzzle reference = .ok false) ∧
    (mode = .equation → ∀ operator value equation,
      action.command = .bothSides operator value → t.state = .equation equation →
      equation.latest = some ⟨operator, Text.trim value, true⟩ → t.signal = .running →
      ∀ reference verdict, (Rules.ofMode mode).solved t.state puzzle reference = .ok verdict →
        verdict = false) := by
  cases mode with
  | maze =>
    exact ⟨fun hwin reference => (Walk.verdict_step hstep reference).1 hwin,
      fun _ dist hmove hrunning reference => (Walk.verdict_step hstep reference).2 dist hmove
        hrunning, nofun⟩
  | turtle =>
    have hrunning := Drawing.signal_step hstep
    refine ⟨fun hwin => ?_, nofun, nofun⟩
    cases hwin.symm.trans hrunning
  | math =>
    have hrunning := Sandbox.signal_step hstep
    refine ⟨fun hwin => ?_, nofun, nofun⟩
    cases hwin.symm.trans hrunning
  | equation =>
    exact ⟨fun hwin reference => (Solver.verdict_step hstep reference).1 hwin, nofun,
      fun _ operator value equation haction hstate hlatest hrunning reference =>
        (Solver.verdict_step hstep reference).2 operator value equation haction hstate hlatest
          hrunning⟩

/-- A floor with a start, an open cell and a goal in a row. -/
def corridor : Puzzle := { id := "corridor", mode := .maze, grid := [[2, 1, 3]] }

/-- One cell ahead is no success in the corridor. In `2x + 3 = 7`, taking three away is no success
either, and halving after it is. -/
theorem signal_agrees_with_verdict_runs :
    (Rules.ofMode .maze).step (some (.maze ⟨0, 0, 0⟩)) (some { command := .move none }) corridor =
      .ok ⟨.maze ⟨1, 0, 0⟩, .running⟩ ∧
    (∀ reference, (Rules.ofMode .maze).solved (.maze ⟨1, 0, 0⟩) corridor reference = .ok false) ∧
    (∀ reference verdict, (Rules.ofMode .equation).solved (.equation Solver.doubledTaken)
      Solver.doubledPuzzle reference = .ok verdict → verdict = false) ∧
    ∀ reference, (Rules.ofMode .equation).solved (.equation Solver.doubledEnd)
      Solver.doubledPuzzle reference = .ok true := by
  have hmove : (Rules.ofMode .maze).step (some (.maze ⟨0, 0, 0⟩))
      (some { command := .move none }) corridor = .ok ⟨.maze ⟨1, 0, 0⟩, .running⟩ := rfl
  have htaken : (Rules.ofMode .equation).step (some (.equation Solver.doubledStart))
      (some { command := .bothSides .subtract "3" }) Solver.doubledPuzzle =
        .ok ⟨.equation Solver.doubledTaken, .running⟩ := Solver.step_doubledStart
  have hhalved : (Rules.ofMode .equation).step (some (.equation Solver.doubledRefused))
      (some { command := .bothSides .divide "2" }) Solver.doubledPuzzle =
        .ok ⟨.equation Solver.doubledEnd, .win⟩ := Solver.step_doubledRefused
  refine ⟨hmove, ?_, ?_, ?_⟩
  · exact (signal_agrees_with_verdict hmove).2.1 rfl none rfl rfl
  · exact (signal_agrees_with_verdict htaken).2.2 rfl .subtract "3" Solver.doubledTaken rfl rfl
      (by cbv) rfl
  · exact (signal_agrees_with_verdict hhalved).1 rfl

end PuzzlePlayback
