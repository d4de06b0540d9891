import PuzzlePlayback.Proofs.Faults
import PuzzlePlayback.Proofs.StateReplay

/-!
# The solver runs on polynomials

The solver keeps its sides as text, and reads what it wrote before every operation. A run of it
is nevertheless the run of a pair of polynomials: read the authored sides once, and apply each
operation to what the one before it left (`Sides.after`). An operation that cannot be read or
carried out leaves the pair alone.

`Shows` relates an equation to the pair that it is the text of. `operated` says all that an
operation can come to; from it follows what one action does to a pair that is shown
(`Shows.step`), and by induction what a run does.

Main result: `text_run_is_polynomial_run`.
-/

namespace PuzzlePlayback.Solver

open Calculator

/-! ## What an operation comes to -/

/-- The equation once an operation was carried out and led to `sides`. -/
def rewritten (equation : Equation) (operator : Operator) (operand x : String) (sides : Sides) :
    Equation :=
  { record equation operator operand true with
    lhs := sides.lhs.render x equation.implicit
    rhs := sides.rhs.render x equation.implicit
    sign := sides.sign }

/-- All that an operation can come to on sides as they are read. -/
inductive Operated (authored : AuthoredEquation) (equation : Equation) (operator : Operator)
    (operand : String) (sides : Sides) : Equation × Signal → Prop
  | refused {refusal : Refusal} :
      attempt sides operator operand authored.unknown = .error refusal →
      Operated authored equation operator operand sides
        (record equation operator operand false, .running)
  | unsolved {next : Sides} :
      attempt sides operator operand authored.unknown = .ok next →
      solution? next.lhs next.rhs = none →
      Operated authored equation operator operand sides
        (rewritten equation operator operand authored.unknown next, .running)
  | solved {next : Sides} {value : Fraction} {result : Check} :
      attempt sides operator operand authored.unknown = .ok next →
      solution? next.lhs next.rhs = some value → next.sign = .eq →
      check authored value = .ok result →
      Operated authored equation operator operand sides
        ({ rewritten equation operator operand authored.unknown next with check := some result },
          .win)
  | bounded {next : Sides} {value : Fraction} :
      attempt sides operator operand authored.unknown = .ok next →
      solution? next.lhs next.rhs = some value → next.sign ≠ .eq →
      Operated authored equation operator operand sides
        (rewritten equation operator operand authored.unknown next, .win)

variable {puzzle : Puzzle} {authored : AuthoredEquation} {equation : Equation}

/-- What is read from the text of a polynomial is the polynomial. -/
theorem eq_of_readSide_render {x : String} {p q : Laurent} {implicit : Bool}
    (hp : p.Within (Expressible x)) (h : readSide (p.render x implicit) x = .ok q) : p = q := by
  rw [readSide_render hp] at h
  split at h
  · exact Except.ok.inj h
  · cases h

/-- An operation reads both sides, and comes to one of these things. -/
theorem operated {operator : Operator} {operand : String} {next : Equation × Signal}
    (hauthored : puzzle.equation = some authored)
    (h : operate equation operator operand puzzle = .ok next) :
    ∃ lhs rhs, readSide equation.lhs authored.unknown = .ok lhs ∧
      readSide equation.rhs authored.unknown = .ok rhs ∧
      Operated authored equation operator operand ⟨lhs, rhs, equation.sign⟩ next := by
  obtain ⟨found, hfound, h⟩ := bind_eq_ok h
  obtain rfl := Except.ok.inj (hfound.symm.trans (authoredOf_eq hauthored))
  obtain ⟨lhs, hlhs, h⟩ := bind_eq_ok h
  obtain ⟨rhs, hrhs, h⟩ := bind_eq_ok h
  refine ⟨lhs, rhs, hlhs, hrhs, ?_⟩
  cases hattempt : attempt ⟨lhs, rhs, equation.sign⟩ operator operand found.unknown with
  | error refusal =>
    rw [hattempt] at h
    cases h
    exact .refused hattempt
  | ok sides =>
    rw [hattempt] at h
    dsimp only at h
    cases hsolution : solution? sides.lhs sides.rhs with
    | none =>
      rw [hsolution] at h
      cases h
      exact .unsolved hattempt hsolution
    | some value =>
      rw [hsolution] at h
      dsimp only at h
      split at h
      · next hsign =>
        obtain ⟨result, hresult, h⟩ := bind_eq_ok h
        cases h
        exact .solved hattempt hsolution hsign hresult
      · next hsign =>
        cases h
        exact .bounded hattempt hsolution hsign

/-! ## The run of the polynomials -/

/-- The sides after an operation on both of them that can be read and is not refused. -/
def Sides.tried? (x : String) (sides : Sides) (action : Action) : Option Sides :=
  match action.command with
  | .bothSides operator value => (attempt sides operator (Text.trim value) x).toOption
  | _ => none

/-- The sides after an action; they stay as they are unless an operation is carried out. -/
def Sides.next (x : String) (sides : Sides) (action : Action) : Sides :=
  (sides.tried? x action).getD sides

/-- The sides after some actions. -/
def Sides.after (x : String) (sides : Sides) (actions : List Action) : Sides :=
  actions.foldl (Sides.next x) sides

theorem Sides.after_snoc (x : String) (sides : Sides) (actions : List Action) (action : Action) :
    sides.after x (actions ++ [action]) = (sides.after x actions).next x action := by
  simp [Sides.after]

/-- The equation has the canonical texts of the sides, and their relation. -/
structure Shows (authored : AuthoredEquation) (equation : Equation) (sides : Sides) : Prop where
  lhs : equation.lhs = sides.lhs.render authored.unknown authored.implicit
  rhs : equation.rhs = sides.rhs.render authored.unknown authored.implicit
  sign : equation.sign = sides.sign
  implicit : equation.implicit = authored.implicit

/-- The equation shows the sides, and they can be expressed in its unknown. -/
structure Tracks (authored : AuthoredEquation) (equation : Equation) (sides : Sides) : Prop
    extends Shows authored equation sides where
  lhs_within : sides.lhs.Within (Expressible authored.unknown)
  rhs_within : sides.rhs.Within (Expressible authored.unknown)

theorem Tracks.written {sides : Sides} (h : Tracks authored equation sides) :
    Written authored equation sides.lhs sides.rhs where
  lhs_eq := by rw [h.lhs, h.implicit]
  rhs_eq := by rw [h.rhs, h.implicit]
  lhs_within := h.lhs_within
  rhs_within := h.rhs_within

theorem tracks_record {sides : Sides} (h : Tracks authored equation sides) (operator : Operator)
    (operand : String) (applied : Bool) :
    Tracks authored (record equation operator operand applied) sides :=
  ⟨⟨h.lhs, h.rhs, h.sign, h.implicit⟩, h.lhs_within, h.rhs_within⟩

theorem tracks_rewritten {sides next : Sides} (h : Tracks authored equation sides)
    {operator : Operator} {operand : String}
    (hnext : attempt sides operator operand authored.unknown = .ok next) (found : Option Check) :
    Tracks authored
      { rewritten equation operator operand authored.unknown next with check := found } next := by
  obtain ⟨hlhs, hrhs⟩ := within_attempt hnext h.lhs_within h.rhs_within
  exact ⟨⟨by simp [Solver.rewritten, h.implicit], by simp [Solver.rewritten, h.implicit], rfl,
    h.implicit⟩, hlhs, hrhs⟩

/-- A puzzle whose sides and relation can be read starts with their texts. -/
theorem tracks_start {lhs rhs : Laurent} {sign : Relation}
    (hauthored : puzzle.equation = some authored)
    (hlhs : Laurent.ofText authored.lhs authored.unknown = .ok lhs)
    (hrhs : Laurent.ofText authored.rhs authored.unknown = .ok rhs)
    (hsign : Relation.ofText? authored.sign = some sign) :
    Checkable authored ∧
      ∃ equation, start puzzle = .ok equation ∧ Tracks authored equation ⟨lhs, rhs, sign⟩ := by
  have hl : readSide authored.lhs authored.unknown = .ok lhs := by rw [readSide, hlhs]
  have hr : readSide authored.rhs authored.unknown = .ok rhs := by rw [readSide, hrhs]
  refine ⟨⟨lhs, rhs, hl, hr⟩, ?_⟩
  unfold start
  rw [authoredOf_eq hauthored]
  simp only [Bind.bind, Except.bind, hl, hr, relationOf, hsign]
  exact ⟨_, rfl, ⟨rfl, rfl, rfl, rfl⟩, within_of_ofText hlhs, within_of_ofText hrhs⟩

/-! ## One action -/

theorem step_bothSides {action : Action} {operator : Operator} {value : String}
    (h : action.command = .bothSides operator value) (equation : Equation) (puzzle : Puzzle) :
    step (some (.equation equation)) (some action) puzzle =
      (operate equation operator (Text.trim value) puzzle).map fun next =>
        ⟨.equation next.1, next.2⟩ := by
  simp only [step, equationOf, h, Option.map_some, Bind.bind, Except.bind]
  cases operate equation operator (Text.trim value) puzzle <;> rfl

/-- Whatever is not an operation on both sides is no operation at all. -/
theorem step_of_not_bothSides {action : Action}
    (h : ∀ operator value, action.command ≠ .bothSides operator value) (equation : Equation)
    (puzzle : Puzzle) : step (some (.equation equation)) (some action) puzzle =
      .ok (.running (.equation equation)) := by
  cases hcommand : action.command with
  | bothSides operator value => exact absurd hcommand (h operator value)
  | _ =>
    simp only [step, equationOf, hcommand, Option.map_some, Bind.bind, Except.bind]
    rfl

/-- The action isolates the unknown, if it is an operation that can be carried out. -/
def Sides.Solves (x : String) (sides : Sides) (action : Action) : Prop :=
  ∃ next, sides.tried? x action = some next ∧ (solution? next.lhs next.rhs).isSome = true

/-- The equation and the signal after an action are those of the sides. -/
structure Answers (authored : AuthoredEquation) (sides : Sides) (action : Action)
    (next : Equation) (signal : Signal) : Prop where
  tracks : Tracks authored next (sides.next authored.unknown action)
  wins : signal = .win ↔ sides.Solves authored.unknown action
  goes : signal ≠ .lost

/-- An operation that is carried out leads to what it leads to in the run of the sides. -/
theorem Tracks.answers {sides tried : Sides} {action : Action} {operator : Operator}
    {operand : String} {signal : Signal} (h : Tracks authored equation sides)
    (htried : sides.tried? authored.unknown action = some tried)
    (hattempt : attempt sides operator operand authored.unknown = .ok tried)
    (hsignal : signal = if (solution? tried.lhs tried.rhs).isSome then .win else .running)
    (found : Option Check) :
    Answers authored sides action
      { rewritten equation operator operand authored.unknown tried with check := found }
      signal where
  tracks := by
    rw [Sides.next, htried]
    exact tracks_rewritten h hattempt found
  wins := by
    simp only [Sides.Solves, htried, Option.some.injEq, exists_eq_left', hsignal]
    cases (solution? tried.lhs tried.rhs).isSome <;> simp
  goes := by
    rw [hsignal]
    split <;> nofun

/-- Without an operation the sides stay. -/
theorem Tracks.answers_idle {sides : Sides} {action : Action} {next : Equation}
    (h : Tracks authored next sides) (htried : sides.tried? authored.unknown action = none) :
    Answers authored sides action next .running where
  tracks := by
    rw [Sides.next, htried]
    exact h
  wins := by simp [Sides.Solves, htried]
  goes := nofun

/-- An operation on texts of polynomials reads these polynomials. -/
theorem Tracks.operated {sides : Sides} {operator : Operator} {operand : String}
    {next : Equation × Signal} (h : Tracks authored equation sides)
    (hauthored : puzzle.equation = some authored)
    (hnext : operate equation operator operand puzzle = .ok next) :
    Operated authored equation operator operand sides next := by
  obtain ⟨lhs, rhs, hlhs, hrhs, hoperated⟩ := Solver.operated hauthored hnext
  rw [h.lhs] at hlhs
  rw [h.rhs] at hrhs
  obtain rfl := eq_of_readSide_render h.lhs_within hlhs
  obtain rfl := eq_of_readSide_render h.rhs_within hrhs
  rw [h.sign] at hoperated
  exact hoperated

theorem Operated.answers {sides : Sides} {action : Action} {operator : Operator} {value : String}
    {next : Equation × Signal} (h : Tracks authored equation sides)
    (haction : action.command = .bothSides operator value)
    (hnext : Operated authored equation operator (Text.trim value) sides next) :
    Answers authored sides action next.1 next.2 := by
  have htried : sides.tried? authored.unknown action =
      (attempt sides operator (Text.trim value) authored.unknown).toOption := by
    rw [Sides.tried?, haction]
  cases hnext with
  | refused hattempt =>
    rw [hattempt] at htried
    exact (tracks_record h operator (Text.trim value) false).answers_idle htried
  | unsolved hattempt hsolution =>
    rw [hattempt] at htried
    exact h.answers htried hattempt (by simp [hsolution]) equation.check
  | @solved tried value result hattempt hsolution _ _ =>
    rw [hattempt] at htried
    exact h.answers htried hattempt (by simp [hsolution]) (some result)
  | bounded hattempt hsolution _ =>
    rw [hattempt] at htried
    exact h.answers htried hattempt (by simp [hsolution]) equation.check

/-- **One action.** On sides that can be read again the solver does what the action does to the
polynomials. -/
theorem Tracks.step {sides : Sides} (h : Tracks authored equation sides)
    (hauthored : puzzle.equation = some authored) (hcheck : Checkable authored)
    (hlegible : Legible sides.lhs ∧ Legible sides.rhs) (action : Action) :
    ∃ next signal, step (some (.equation equation)) (some action) puzzle =
        .ok ⟨.equation next, signal⟩ ∧
      Answers authored sides action next signal := by
  by_cases hboth : ∃ operator value, action.command = .bothSides operator value
  · obtain ⟨operator, value, haction⟩ := hboth
    obtain ⟨next, signal, l, r, hoperate, _⟩ :=
      operate_of_legible h.written hauthored hcheck hlegible operator (Text.trim value)
    refine ⟨next, signal, ?_, (h.operated hauthored hoperate).answers h haction⟩
    rw [step_bothSides haction, hoperate]
    rfl
  · have hnot (operator : Operator) (value : String) :
        action.command ≠ .bothSides operator value := fun haction => hboth ⟨_, _, haction⟩
    refine ⟨equation, .running, step_of_not_bothSides hnot equation puzzle, ?_⟩
    refine h.answers_idle ?_
    unfold Sides.tried?
    split
    · next operator value haction => exact absurd haction (hnot operator value)
    · rfl

/-! ## Whole runs -/

/-- A scan is no operation either, so a replay plays every action by the rules. -/
theorem replay_snoc_equation {actions : List Action}
    (h : replay rules puzzle actions = .ok (.equation equation)) (action : Action) :
    replay rules puzzle (actions ++ [action]) =
      match step (some (.equation equation)) (some action) puzzle with
      | .ok t => .ok t.state
      | .error fault => .error (fault.at actions.length) := by
  rw [Stage.replay_snoc ⟨rules, puzzle, none, 0⟩, h]
  show Stage.advance _ _ _ _ = _
  rw [Stage.advance, Stage.transition]
  by_cases hscan : action.isScan = true
  · have hstep : step (some (.equation equation)) (some action) puzzle =
        .ok (.running (.equation equation)) := by
      refine step_of_not_bothSides (fun operator value haction => ?_) equation puzzle
      simp [Action.isScan, haction] at hscan
    rw [if_pos hscan, hstep]
  · rw [if_neg hscan]
    rfl

theorem replay_of_step {actions : List Action} {action : Action} {t : Transition}
    (h : replay rules puzzle actions = .ok (.equation equation))
    (hstep : rules.step (some (.equation equation)) (some action) puzzle = .ok t) :
    replay rules puzzle (actions ++ [action]) = .ok t.state := by
  have hplayed : step (some (.equation equation)) (some action) puzzle = .ok t := hstep
  rw [replay_snoc_equation h, hplayed]

/-- What comes before an action that is played can be played. -/
theorem exists_replay_of_snoc {actions : List Action} {action : Action} {world : World}
    (h : replay rules puzzle (actions ++ [action]) = .ok world) :
    ∃ before, replay rules puzzle actions = .ok before := by
  cases hbefore : replay rules puzzle actions with
  | ok before => exact ⟨before, rfl⟩
  | error fault =>
    rw [Stage.replay_snoc ⟨rules, puzzle, none, 0⟩, hbefore] at h
    cases h

theorem step_of_replay {actions : List Action} {action : Action} {world : World}
    (hbefore : replay rules puzzle actions = .ok (.equation equation))
    (h : replay rules puzzle (actions ++ [action]) = .ok world) :
    ∃ t, rules.step (some (.equation equation)) (some action) puzzle = .ok t ∧ t.state = world := by
  rw [replay_snoc_equation hbefore] at h
  split at h
  · next t hstep => exact ⟨t, hstep, Except.ok.inj h⟩
  · cases h

/-- Nothing can be replayed where there is no start. -/
theorem exists_start_of_replay {actions : List Action} {world : World}
    (h : replay rules puzzle actions = .ok world) : ∃ equation, start puzzle = .ok equation := by
  cases hstart : start puzzle with
  | ok equation => exact ⟨equation, rfl⟩
  | error fault =>
    have hstate : rules.startState puzzle = .error fault := by
      show (step none none puzzle).map _ = _
      simp only [step, equationOf, hstart]
      rfl
    rw [replay, hstate] at h
    cases h

theorem startState_eq (hstart : start puzzle = .ok equation) :
    rules.startState puzzle = .ok (.equation equation) := by
  show (step none none puzzle).map _ = _
  simp only [step, equationOf, hstart]
  rfl

theorem replay_nil (hstart : start puzzle = .ok equation) :
    replay rules puzzle [] = .ok (.equation equation) := by
  rw [replay, startState_eq hstart]
  rfl

/-- The run of the solver shows the run of the sides. By induction on the number of actions
played; the sides before each of them are legible, so the next can be played. -/
theorem tracks_replay {sides : Sides} {actions : List Action}
    (hauthored : puzzle.equation = some authored) (hcheck : Checkable authored)
    (hstart : start puzzle = .ok equation) (hfirst : Tracks authored equation sides)
    (hlegible : ∀ n < actions.length,
      Legible (sides.after authored.unknown (actions.take n)).lhs ∧
      Legible (sides.after authored.unknown (actions.take n)).rhs) {n : Nat}
    (hn : n ≤ actions.length) :
    ∃ reached, replay rules puzzle (actions.take n) = .ok (.equation reached) ∧
      Tracks authored reached (sides.after authored.unknown (actions.take n)) := by
  induction n with
  | zero => exact ⟨equation, replay_nil hstart, hfirst⟩
  | succ n ih =>
    obtain ⟨reached, hreplay, htracks⟩ := ih (Nat.le_of_succ_le hn)
    obtain ⟨next, signal, hstep, hanswers⟩ :=
      htracks.step hauthored hcheck (hlegible n hn) actions[n]
    rw [← List.take_append_getElem hn, Sides.after_snoc]
    exact ⟨next, replay_of_step hreplay hstep, hanswers.tracks⟩

/-- **The text run is the polynomial run.** Take a puzzle whose sides and relation can be read, and
some actions, and apply those of them that are operations and can be carried out to the authored
sides, as polynomials. If the sides before each action have degrees from -16 to 16, the solver
plays all actions without a fault. At each point its sides are the canonical texts of the
polynomials and its relation is theirs; and an action wins exactly if it is an operation that is
carried out and isolates the unknown. -/
theorem text_run_is_polynomial_run {lhs rhs : Laurent} {sign : Relation}
    (hauthored : puzzle.equation = some authored)
    (hlhs : Laurent.ofText authored.lhs authored.unknown = .ok lhs)
    (hrhs : Laurent.ofText authored.rhs authored.unknown = .ok rhs)
    (hsign : Relation.ofText? authored.sign = some sign) {actions : List Action}
    (hlegible : ∀ n < actions.length,
      let sides := Sides.after authored.unknown ⟨lhs, rhs, sign⟩ (actions.take n)
      Legible sides.lhs ∧ Legible sides.rhs) :
    (∀ n ≤ actions.length, ∃ equation,
      replay rules puzzle (actions.take n) = .ok (.equation equation) ∧
      Shows authored equation
        (Sides.after authored.unknown ⟨lhs, rhs, sign⟩ (actions.take n))) ∧
    ∀ n equation action, actions[n]? = some action →
      replay rules puzzle (actions.take n) = .ok (.equation equation) →
      ∃ next signal, rules.step (some (.equation equation)) (some action) puzzle =
          .ok ⟨.equation next, signal⟩ ∧
        (n = 0 → rules.step none (some action) puzzle = .ok ⟨.equation next, signal⟩) ∧
        replay rules puzzle (actions.take (n + 1)) = .ok (.equation next) ∧
        (signal = .win ↔
          (Sides.after authored.unknown ⟨lhs, rhs, sign⟩ (actions.take n)).Solves
            authored.unknown action) ∧
        signal ≠ .lost := by
  obtain ⟨hcheck, first, hstart, hfirst⟩ := tracks_start hauthored hlhs hrhs hsign
  have hrun {n : Nat} (hn : n ≤ actions.length) :=
    tracks_replay hauthored hcheck hstart hfirst hlegible hn
  refine ⟨fun n hn => ?_, fun n equation action haction hreplay => ?_⟩
  · obtain ⟨equation, hreplay, htracks⟩ := hrun hn
    exact ⟨equation, hreplay, htracks.toShows⟩
  · obtain ⟨hn, rfl⟩ := List.getElem?_eq_some_iff.1 haction
    obtain ⟨reached, hreached, htracks⟩ := hrun (Nat.le_of_lt hn)
    cases hreached.symm.trans hreplay
    obtain ⟨next, signal, hstep, hanswers⟩ :=
      htracks.step hauthored hcheck (hlegible n hn) actions[n]
    refine ⟨next, signal, hstep, ?_, ?_, hanswers.wins, hanswers.goes⟩
    · rintro rfl
      cases hreplay.symm.trans (replay_nil hstart)
      rw [startsFresh, startState_eq hstart]
      exact hstep
    · rw [← List.take_append_getElem hn]
      exact replay_of_step hreplay hstep

/-! ## A small run -/

/-- The equation `2x + 3 = 7`. -/
def doubled : AuthoredEquation := ⟨"2x + 3", "7", "x", "=", true⟩

/-- Its puzzle. -/
def doubledPuzzle : Puzzle := { id := "doubled", mode := .equation, equation := some doubled }

/-- Take three away, try to multiply by zero, halve. -/
def doubledActions : List Action :=
  [{ command := .bothSides .subtract "3" }, { command := .bothSides .multiply "0" },
    { command := .bothSides .divide "2" }]

/-- The sides `2x + 3` and `7` as polynomials. -/
def doubledSides : Sides :=
  ⟨(Laurent.constant (.ofInt 3)).put 1 (.ofInt 2), .constant (.ofInt 7), .eq⟩

/-- The sides `2x` and `4`. -/
def doubledReduced : Sides := ⟨.monomial (.ofInt 2) 1, .constant (.ofInt 4), .eq⟩

/-- The sides `x` and `2`. -/
def doubledSolved : Sides := ⟨.var, .constant (.ofInt 2), .eq⟩

theorem after_doubled :
    doubledSides.after "x" (doubledActions.take 1) = doubledReduced ∧
    doubledSides.after "x" (doubledActions.take 2) = doubledReduced ∧
    doubledSides.after "x" (doubledActions.take 3) = doubledSolved := by
  refine ⟨?_, ?_, ?_⟩ <;> cbv

/-- The multiplication by zero is refused; the sides after all three actions are `x` and `2`. -/
theorem text_run_is_polynomial_run_doubled :
    (Laurent.ofText "2x + 3" "x" = .ok doubledSides.lhs ∧
      Laurent.ofText "7" "x" = .ok doubledSides.rhs ∧ Relation.ofText? "=" = some .eq) ∧
    (∀ n < doubledActions.length,
      let sides := doubledSides.after "x" (doubledActions.take n)
      Legible sides.lhs ∧ Legible sides.rhs) ∧
    ∃ equation, replay rules doubledPuzzle doubledActions = .ok (.equation equation) ∧
      Shows doubled equation doubledSolved := by
  have hlhs : Laurent.ofText "2x + 3" "x" = .ok doubledSides.lhs := by cbv
  have hrhs : Laurent.ofText "7" "x" = .ok doubledSides.rhs := by cbv
  have hsign : Relation.ofText? "=" = some .eq := by cbv
  obtain ⟨hone, htwo, hthree⟩ := after_doubled
  have hlegible : ∀ n < doubledActions.length,
      let sides := doubledSides.after "x" (doubledActions.take n)
      Legible sides.lhs ∧ Legible sides.rhs := by
    intro n hn
    have hcases : n = 0 ∨ n = 1 ∨ n = 2 := by
      have hlength : doubledActions.length = 3 := rfl
      omega
    rcases hcases with rfl | rfl | rfl
    · exact ⟨by decide, by decide⟩
    · rw [hone]
      exact ⟨by decide, by decide⟩
    · rw [htwo]
      exact ⟨by decide, by decide⟩
  have hauthored : doubledPuzzle.equation = some doubled := rfl
  obtain ⟨hrun, _⟩ := text_run_is_polynomial_run hauthored hlhs hrhs hsign hlegible
  obtain ⟨equation, hreplay, hshows⟩ := hrun 3 (Nat.le_refl _)
  refine ⟨⟨hlhs, hrhs, hsign⟩, hlegible, equation, hreplay, ?_⟩
  exact hthree ▸ hshows

end PuzzlePlayback.Solver
