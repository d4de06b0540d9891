import PuzzlePlayback.Proofs.OnRecord
import PuzzlePlayback.Proofs.SignalAndVerdict

/-!
# The check that is shown

An equation that becomes solved shows the check of its solution. The check stays when a later
operation takes the solution away again: only the next solution replaces it. So what is shown is the
check of the latest solution (`LatestSolution`), and it is of the present sides exactly as long as
no operation has been carried out since.

The invariant of a run is `ChecksLatest`, and it is kept by whatever an operation comes to
(`Showing`). It says something about the sides only after an operation has left a solution, so what
the sides were before an operation never matters.

Main result: `check_is_of_latest_solution`.
-/

namespace PuzzlePlayback.Solver

open Calculator

variable {puzzle : Puzzle} {authored : AuthoredEquation} {before next : Equation}
  {actions played : List Action} {action : Action} {value other : Fraction}

/-! ## Solutions on the way -/

theorem SolvedWith.unique (h : SolvedWith authored next value)
    (hother : SolvedWith authored next other) : value = other := by
  obtain ⟨l, r, hl, hr, hvalue⟩ := h
  obtain ⟨l', r', hl', hr', hvalue'⟩ := hother
  cases hl.symm.trans hl'
  cases hr.symm.trans hr'
  exact Option.some.inj (hvalue.symm.trans hvalue')

/-- The last of these actions is an operation that is carried out. -/
def CarriesOut (puzzle : Puzzle) (actions : List Action) : Prop :=
  ∃ before action operator value equation, actions = before ++ [action] ∧
    action.command = .bothSides operator value ∧
    replay rules puzzle actions = .ok (.equation equation) ∧
    equation.latest = some ⟨operator, Text.trim value, true⟩

/-- The last of these actions is an operation that is carried out and leaves the unknown on one
side and this value on the other. -/
def Solves (puzzle : Puzzle) (authored : AuthoredEquation) (actions : List Action)
    (value : Fraction) : Prop :=
  CarriesOut puzzle actions ∧ ∃ equation, replay rules puzzle actions = .ok (.equation equation) ∧
    SolvedWith authored equation value

/-- The last action that solves among these is the last one played, and this is its solution. -/
structure LatestSolution (puzzle : Puzzle) (authored : AuthoredEquation)
    (actions played : List Action) (value : Fraction) : Prop where
  earlier : played <+: actions
  solves : Solves puzzle authored played value
  latest : ∀ longer, longer <+: actions → played.length < longer.length →
    ∀ other, ¬ Solves puzzle authored longer other

/-- An operation among these actions is carried out after those played. -/
def CarriesOutAfter (puzzle : Puzzle) (played actions : List Action) : Prop :=
  ∃ longer, longer <+: actions ∧ played.length < longer.length ∧ CarriesOut puzzle longer

theorem carriesOut_snoc {operator : Operator} {operand : String}
    (hcommand : action.command = .bothSides operator operand)
    (hreplay : replay rules puzzle (actions ++ [action]) = .ok (.equation next)) :
    CarriesOut puzzle (actions ++ [action]) ↔
      next.latest = some ⟨operator, Text.trim operand, true⟩ := by
  constructor
  · rintro ⟨_, _, _, _, _, hwhole, hlast, hequation, hlatest⟩
    obtain ⟨_, hsame⟩ := List.append_inj' hwhole rfl
    cases hsame
    cases hcommand.symm.trans hlast
    cases hreplay.symm.trans hequation
    exact hlatest
  · intro hlatest
    exact ⟨actions, action, operator, operand, next, rfl, hcommand, hreplay, hlatest⟩

theorem not_carriesOut_of_idle (hidle : action.isOperation = false) :
    ¬ CarriesOut puzzle (actions ++ [action]) := by
  rintro ⟨_, _, operator, operand, _, hwhole, hlast, _, _⟩
  obtain ⟨_, hsame⟩ := List.append_inj' hwhole rfl
  cases hsame
  cases hidle.symm.trans (Action.isOperation_iff.2 ⟨operator, operand, hlast⟩)

/-- An action that solves nothing leaves the latest solution. -/
theorem latestSolution_snoc_of_not
    (h : ∀ other, ¬ Solves puzzle authored (actions ++ [action]) other) :
    LatestSolution puzzle authored (actions ++ [action]) played value ↔
      LatestSolution puzzle authored actions played value := by
  constructor
  · rintro ⟨hearlier, hsolves, hlatest⟩
    refine ⟨?_, hsolves, fun longer hlonger => hlatest longer (hlonger.trans ⟨_, rfl⟩)⟩
    rcases List.prefix_concat_iff.1 hearlier with rfl | hearlier
    · exact absurd hsolves (h value)
    · exact hearlier
  · rintro ⟨hearlier, hsolves, hlatest⟩
    refine ⟨hearlier.trans ⟨_, rfl⟩, hsolves, fun longer hlonger hlength => ?_⟩
    rcases List.prefix_concat_iff.1 hlonger with rfl | hlonger
    · exact h
    · exact hlatest longer hlonger hlength

/-- An action that solves is the latest that does. -/
theorem latestSolution_snoc (h : Solves puzzle authored (actions ++ [action]) value) :
    LatestSolution puzzle authored (actions ++ [action]) played other ↔
      played = actions ++ [action] ∧ other = value := by
  constructor
  · rintro ⟨hearlier, ⟨_, equation, hequation, hother⟩, hlatest⟩
    rcases List.prefix_concat_iff.1 hearlier with rfl | hearlier
    · obtain ⟨_, found, hfound, hvalue⟩ := h
      cases hequation.symm.trans hfound
      exact ⟨rfl, hother.unique hvalue⟩
    · have hlength := hearlier.length_le
      exact absurd h (hlatest _ (List.prefix_refl _) (by simp; omega) value)
  · rintro ⟨rfl, rfl⟩
    refine ⟨List.prefix_refl _, h, fun longer hlonger hlength => ?_⟩
    exact absurd hlonger.length_le (Nat.not_le.2 hlength)

theorem carriesOutAfter_snoc (hplayed : played <+: actions) :
    CarriesOutAfter puzzle played (actions ++ [action]) ↔
      CarriesOutAfter puzzle played actions ∨ CarriesOut puzzle (actions ++ [action]) := by
  constructor
  · rintro ⟨longer, hlonger, hlength, hcarries⟩
    rcases List.prefix_concat_iff.1 hlonger with rfl | hlonger
    · exact .inr hcarries
    · exact .inl ⟨longer, hlonger, hlength, hcarries⟩
  · rintro (⟨longer, hlonger, hlength, hcarries⟩ | hcarries)
    · exact ⟨longer, hlonger.trans ⟨_, rfl⟩, hlength, hcarries⟩
    · refine ⟨_, List.prefix_refl _, ?_, hcarries⟩
      have hlength := hplayed.length_le
      simp
      omega

theorem not_carriesOutAfter_self : ¬ CarriesOutAfter puzzle actions actions := by
  rintro ⟨longer, hlonger, hlength, _⟩
  exact absurd hlonger.length_le (Nat.not_le.2 hlength)

/-! ## The invariant -/

/-- The check that an equation shows is the one of the latest solution, and the sides have that
solution exactly if no operation has been carried out since. -/
structure ChecksLatest (puzzle : Puzzle) (authored : AuthoredEquation) (actions : List Action)
    (equation : Equation) : Prop where
  checked : ∀ result, equation.check = some result ↔ equation.sign = .eq ∧
    ∃ played value, LatestSolution puzzle authored actions played value ∧
      check authored value = .ok result
  present : ∀ played value, LatestSolution puzzle authored actions played value →
    ∀ other, SolvedWith authored equation other ↔
      other = value ∧ ¬ CarriesOutAfter puzzle played actions

theorem checksLatest_start (h : start puzzle = .ok next) :
    ChecksLatest puzzle authored [] next := by
  have hnone {played : List Action} {value : Fraction} :
      ¬ LatestSolution puzzle authored [] played value := by
    rintro ⟨hearlier, ⟨⟨_, _, _, _, _, hwhole, _⟩, _⟩, _⟩
    rw [List.prefix_nil.1 hearlier] at hwhole
    simp at hwhole
  constructor
  · intro result
    rw [(start_blank h).2.2]
    exact iff_of_false nofun fun ⟨_, _, _, hlatest, _⟩ => hnone hlatest
  · exact fun _ _ hlatest => absurd hlatest hnone

/-- Without an operation that is carried out, everything stays as it is. -/
theorem ChecksLatest.kept (h : ChecksLatest puzzle authored actions before)
    (hnot : ¬ CarriesOut puzzle (actions ++ [action])) (hlhs : next.lhs = before.lhs)
    (hrhs : next.rhs = before.rhs) (hsign : next.sign = before.sign)
    (hcheck : next.check = before.check) :
    ChecksLatest puzzle authored (actions ++ [action]) next := by
  have hlatest (played : List Action) (value : Fraction) :
      LatestSolution puzzle authored (actions ++ [action]) played value ↔
        LatestSolution puzzle authored actions played value :=
    latestSolution_snoc_of_not fun _ hsolves => hnot hsolves.1
  constructor
  · intro result
    simp only [hcheck, hsign, hlatest, h.checked]
  · intro played value hplayed other
    have hbefore := (hlatest played value).1 hplayed
    rw [carriesOutAfter_snoc hbefore.earlier, or_iff_left hnot, ← h.present played value hbefore,
      SolvedWith, SolvedWith, hlhs, hrhs]

/-- An operation that leaves no solution leaves the check. -/
theorem ChecksLatest.unsolved (h : ChecksLatest puzzle authored actions before)
    (hcarries : CarriesOut puzzle (actions ++ [action]))
    (hreplay : replay rules puzzle (actions ++ [action]) = .ok (.equation next))
    (hsign : next.sign = .eq ↔ before.sign = .eq)
    (hnone : ∀ value, ¬ SolvedWith authored next value) (hcheck : next.check = before.check) :
    ChecksLatest puzzle authored (actions ++ [action]) next := by
  have hsolves : ∀ other, ¬ Solves puzzle authored (actions ++ [action]) other := by
    rintro other ⟨_, equation, hequation, hother⟩
    cases hreplay.symm.trans hequation
    exact hnone other hother
  constructor
  · intro result
    simp only [hcheck, hsign, latestSolution_snoc_of_not hsolves, h.checked]
  · intro played value hplayed other
    have hearlier := ((latestSolution_snoc_of_not hsolves).1 hplayed).earlier
    refine iff_of_false (hnone other) fun ⟨_, hnot⟩ => hnot ?_
    exact (carriesOutAfter_snoc hearlier).2 (.inr hcarries)

/-- After an operation that solves, the check is the one of its solution. -/
theorem ChecksLatest.of_solves (hsolves : Solves puzzle authored (actions ++ [action]) value)
    (hvalue : SolvedWith authored next value)
    (hchecked : ∀ result, next.check = some result ↔
      next.sign = .eq ∧ check authored value = .ok result) :
    ChecksLatest puzzle authored (actions ++ [action]) next := by
  constructor
  · intro result
    rw [hchecked]
    refine and_congr_right fun _ => ⟨fun hresult => ?_, ?_⟩
    · exact ⟨_, value, (latestSolution_snoc hsolves).2 ⟨rfl, rfl⟩, hresult⟩
    · rintro ⟨played, other, hlatest, hresult⟩
      obtain ⟨_, rfl⟩ := (latestSolution_snoc hsolves).1 hlatest
      exact hresult
  · intro played other hlatest third
    obtain ⟨rfl, rfl⟩ := (latestSolution_snoc hsolves).1 hlatest
    rw [and_iff_left not_carriesOutAfter_self]
    exact ⟨fun hthird => hthird.unique hvalue, fun heq => heq ▸ hvalue⟩

theorem ChecksLatest.showing {operator : Operator} {operand : String} {signal : Signal}
    (h : ChecksLatest puzzle authored actions before)
    (hreplay : replay rules puzzle (actions ++ [action]) = .ok (.equation next))
    (hcommand : action.command = .bothSides operator operand)
    (hshowing : Showing authored before operator (Text.trim operand) next signal) :
    ChecksLatest puzzle authored (actions ++ [action]) next := by
  have hcarries := carriesOut_snoc hcommand hreplay
  cases hshowing with
  | refused => exact h.kept (fun hnot => by cases hcarries.1 hnot) rfl rfl rfl rfl
  | unsolved hlatest hsign hnone hcheck =>
    exact h.unsolved (hcarries.2 hlatest) hreplay hsign hnone hcheck
  | @solved _ value result hlatest hsign _ hvalue hresult hcheck =>
    refine .of_solves ⟨hcarries.2 hlatest, next, hreplay, hvalue⟩ hvalue fun other => ?_
    rw [hcheck, hresult, Option.some.injEq, Except.ok.injEq]
    exact (and_iff_right hsign).symm
  | @bounded _ value hlatest hsign hbefore hvalue hcheck =>
    -- An inequality has never shown a check, and does not now.
    refine .of_solves ⟨hcarries.2 hlatest, next, hreplay, hvalue⟩ hvalue fun result => ?_
    rw [hcheck, h.checked]
    exact iff_of_false (fun hshown => hbefore hshown.1) fun hshown => hsign hshown.1

/-- The invariant of a run. By induction on the actions from the last one back. -/
theorem checksLatest_replay (hauthored : puzzle.equation = some authored)
    (h : replay rules puzzle actions = .ok (.equation next)) :
    ChecksLatest puzzle authored actions next := by
  induction actions using List.reverseRecOn generalizing next with
  | nil =>
    obtain ⟨_, hstart, ⟨⟩⟩ := start_of_replay h
    exact checksLatest_start hstart
  | append_singleton actions action ih =>
    obtain ⟨before, t, hbefore, hstep, hstate, _⟩ := effect_of_replay hauthored h
    have hplayed : step (some (.equation before)) (some action) puzzle = .ok t := hstep
    cases hoperation : action.isOperation with
    | true =>
      obtain ⟨operator, operand, hcommand⟩ := Action.isOperation_iff.1 hoperation
      rw [step_bothSides hcommand] at hplayed
      obtain ⟨⟨reached, signal⟩, hreached, rfl⟩ := map_eq_ok hplayed
      cases hstate
      exact (ih hbefore).showing h hcommand (showing_operate hauthored hreached)
    | false =>
      rw [step_of_not_operation hoperation] at hplayed
      cases hplayed
      cases hstate
      exact (ih hbefore).kept (not_carriesOut_of_idle hoperation) rfl rfl rfl rfl

theorem value_of_check {result : Check} (h : check authored value = .ok result) :
    result.value = value.render := by
  obtain ⟨_, _, h⟩ := bind_eq_ok h
  obtain ⟨_, _, h⟩ := bind_eq_ok h
  cases h
  rfl

/-- **The check is the one of the latest solution.** Where some actions can be replayed, the
equation that they lead to shows a check exactly if it is no inequality and an operation on the way
to it has left a solution; then the check is the one of the latest of these solutions. The sides
still have that solution exactly if no operation has been carried out since, and while they have a
solution, a check that is shown is of it. -/
theorem check_is_of_latest_solution {world : World}
    (h : replay rules puzzle actions = .ok world) :
    ∃ authored equation, puzzle.equation = some authored ∧ world = .equation equation ∧
      (∀ result, equation.check = some result ↔ equation.sign = .eq ∧
        ∃ played value, LatestSolution puzzle authored actions played value ∧
          check authored value = .ok result) ∧
      (∀ played value, LatestSolution puzzle authored actions played value →
        ∀ other, SolvedWith authored equation other ↔
          other = value ∧ ¬ CarriesOutAfter puzzle played actions) ∧
      ∀ result value, equation.check = some result → SolvedWith authored equation value →
        result.value = value.render := by
  obtain ⟨authored, equation, hauthored, rfl⟩ := exists_equation_of_replay h
  have hlatest := checksLatest_replay hauthored h
  refine ⟨authored, equation, hauthored, rfl, hlatest.checked, hlatest.present, ?_⟩
  intro result value hshown hvalue
  obtain ⟨_, played, found, hfound, hresult⟩ := (hlatest.checked result).1 hshown
  obtain ⟨rfl, _⟩ := (hlatest.present played found hfound value).1 hvalue
  exact value_of_check hresult

/-- After the solution of `2x + 3 = 7`, add one to both sides. -/
def undoingActions : List Action := doubledActions ++ [{ command := .bothSides .add "1" }]

/-- The equation is `x + 1 = 3` again and still shows the check of two. -/
def doubledUndone : Equation :=
  { record doubledEnd .add "1" true with
    lhs := "x + 1"
    rhs := "3" }

theorem replay_undoing :
    replay rules doubledPuzzle undoingActions = .ok (.equation doubledUndone) := by
  have hstep : rules.step (some (.equation doubledEnd)) (some { command := .bothSides .add "1" })
      doubledPuzzle = .ok ⟨.equation doubledUndone, .running⟩ := by cbv
  exact replay_of_step replay_doubled.2.2.2 hstep

theorem not_solvedWith_undone (value : Fraction) : ¬ SolvedWith doubled doubledUndone value := by
  have hread : readSide "x + 1" "x" = .ok ((Laurent.constant .one).put 1 .one) ∧
      readSide "3" "x" = .ok (.constant (.ofInt 3)) := ⟨by cbv, by cbv⟩
  have hnone : solution? ((Laurent.constant .one).put 1 .one) (.constant (.ofInt 3)) = none := by
    cbv
  rintro ⟨lhs, rhs, hlhs, hrhs, hsolution⟩
  cases hread.1.symm.trans hlhs
  cases hread.2.symm.trans hrhs
  cases hnone.symm.trans hsolution

/-- The check of two is the one of the solution that was there before one was added. -/
theorem check_is_of_latest_solution_undone :
    replay rules doubledPuzzle undoingActions = .ok (.equation doubledUndone) ∧
    ∃ played value, LatestSolution doubledPuzzle doubled undoingActions played value ∧
      check doubled value = .ok ⟨"2", "7", "7", true⟩ ∧
      CarriesOutAfter doubledPuzzle played undoingActions := by
  obtain ⟨_, _, ⟨⟩, ⟨⟩, hchecked, hpresent, _⟩ := check_is_of_latest_solution replay_undoing
  obtain ⟨_, played, value, hlatest, hresult⟩ := (hchecked ⟨"2", "7", "7", true⟩).1 rfl
  refine ⟨replay_undoing, played, value, hlatest, hresult, ?_⟩
  by_contra hnot
  exact not_solvedWith_undone value ((hpresent played value hlatest value).2 ⟨rfl, hnot⟩)

/-- **A check goes stale.** It is shown although the sides have no solution. -/
theorem check_goes_stale :
    replay rules doubledPuzzle undoingActions = .ok (.equation doubledUndone) ∧
    doubledUndone.check = some ⟨"2", "7", "7", true⟩ ∧
    ¬ ∃ value, SolvedWith doubled doubledUndone value :=
  ⟨replay_undoing, rfl, fun ⟨value, hvalue⟩ => not_solvedWith_undone value hvalue⟩

end PuzzlePlayback.Solver
