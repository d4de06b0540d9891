import PuzzlePlayback.Proofs.RoundTrip
import PuzzlePlayback.Replay
import PuzzlePlayback.World.Registry

/-!
# Which actions fault

A mode without an equation plays whatever a learner does. The solver keeps its sides as text and
reads them again before each operation, and it writes sides that it does not read: multiplying by
the unknown can take a degree beyond the largest exponent of the reader. A world is `Readable` if
it has no such side. The actions of a learner fault exactly if they lead to a world that is not
(`faults_only_beyond_reader`), and `highPower` is a puzzle where one operation does.

The argument says once what a mode does at a world that is readable and at one that is not
(`FaultsAt`), and follows a run from there: a world that is not readable stays as it is until the
next operation or the judgement fails on it.
-/

namespace PuzzlePlayback

open Calculator

/-! ## Runs -/

section

variable {rules : Rules} {puzzle : Puzzle} {world : World} {action : Action}

theorem replayFrom_cons_of_scan (hscan : action.isScan = true) (index : Nat)
    (actions : List Action) : replayFrom rules puzzle world index (action :: actions) =
      replayFrom rules puzzle world (index + 1) actions := by
  rw [replayFrom, if_pos hscan]

theorem replayFrom_cons_of_ok {t : Transition} (hscan : ¬ action.isScan = true)
    (hstep : rules.step (some world) (some action) puzzle = .ok t) (index : Nat)
    (actions : List Action) : replayFrom rules puzzle world index (action :: actions) =
      replayFrom rules puzzle t.state (index + 1) actions := by
  rw [replayFrom, if_neg hscan, hstep]

theorem replayFrom_cons_of_error {fault : Fault} (hscan : ¬ action.isScan = true)
    (hstep : rules.step (some world) (some action) puzzle = .error fault) (index : Nat)
    (actions : List Action) : replayFrom rules puzzle world index (action :: actions) =
      .error (fault.at index) := by
  rw [replayFrom, if_neg hscan, hstep]

end

/-- The rules fault at worlds that are not readable only, where `Good` holds of all that are
reached, and then with an expected fault. -/
structure FaultsAt (rules : Rules) (puzzle : Puzzle) (Good Readable : World → Prop)
    (Expected : Fault → Prop) : Prop where
  plays : ∀ {world}, Good world → Readable world → ∀ action, ∃ t,
    rules.step (some world) (some action) puzzle = .ok t ∧ Good t.state
  sticks : ∀ {world action t}, Good world → ¬ Readable world →
    rules.step (some world) (some action) puzzle = .ok t → t.state = world
  refuses : ∀ {world action fault}, Good world →
    rules.step (some world) (some action) puzzle = .error fault → Expected fault
  judges : ∀ {world}, Good world → Readable world → ∀ reference, ∃ verdict,
    rules.solved world puzzle reference = .ok verdict
  dismisses : ∀ {world}, Good world → ¬ Readable world → ∀ reference, ∃ fault,
    rules.solved world puzzle reference = .error fault ∧ Expected fault

namespace FaultsAt

variable {rules : Rules} {puzzle : Puzzle} {Good Readable : World → Prop}
  {Expected : Fault → Prop}

/-- An action that can be played leads to a good world. -/
theorem good_step (h : FaultsAt rules puzzle Good Readable Expected) {world : World}
    (hworld : Good world) {action : Action} {t : Transition}
    (hstep : rules.step (some world) (some action) puzzle = .ok t) : Good t.state := by
  by_cases hread : Readable world
  · obtain ⟨u, hu, hgood⟩ := h.plays hworld hread action
    rw [hstep] at hu
    cases hu
    exact hgood
  · rwa [h.sticks hworld hread hstep]

/-- What the next action comes to. Either the rest is played from a good world, which is readable
only if this one is; or this one is not readable, and the fault is an expected one. -/
theorem next_cases (h : FaultsAt rules puzzle Good Readable Expected) {world : World}
    (hworld : Good world) (action : Action) :
    (∃ next, Good next ∧ (Readable next → Readable world) ∧ ∀ index actions,
      replayFrom rules puzzle world index (action :: actions) =
        replayFrom rules puzzle next (index + 1) actions) ∨
    ∃ fault, ¬ Readable world ∧ Expected fault ∧ ∀ index actions,
      replayFrom rules puzzle world index (action :: actions) = .error (fault.at index) := by
  by_cases hscan : action.isScan = true
  · exact .inl ⟨world, hworld, id, replayFrom_cons_of_scan hscan⟩
  cases hstep : rules.step (some world) (some action) puzzle with
  | error fault =>
    refine .inr ⟨fault, fun hread => ?_, h.refuses hworld hstep,
      replayFrom_cons_of_error hscan hstep⟩
    obtain ⟨t, ht, _⟩ := h.plays hworld hread action
    rw [hstep] at ht
    cases ht
  | ok t =>
    refine .inl ⟨t.state, h.good_step hworld hstep, fun hnext => ?_,
      replayFrom_cons_of_ok hscan hstep⟩
    by_cases hread : Readable world
    · exact hread
    · rwa [h.sticks hworld hread hstep] at hnext

/-- Rules that play every action and judge every world never fault. -/
theorem of_total (hread : ∀ world, Good world → Readable world)
    (hplays : ∀ world, Good world → ∀ action, ∃ t,
      rules.step (some world) (some action) puzzle = .ok t ∧ Good t.state)
    (hjudges : ∀ world, Good world → ∀ reference, ∃ verdict,
      rules.solved world puzzle reference = .ok verdict) :
    FaultsAt rules puzzle Good Readable Expected where
  plays hworld _ := hplays _ hworld
  sticks hworld hnot := absurd (hread _ hworld) hnot
  refuses {world action fault} hworld hfault := by
    obtain ⟨t, ht, _⟩ := hplays world hworld action
    rw [hfault] at ht
    cases ht
  judges hworld _ := hjudges _ hworld
  dismisses hworld hnot := absurd (hread _ hworld) hnot

/-- The end of some actions can be judged exactly if it is readable. -/
theorem judges_iff (h : FaultsAt rules puzzle Good Readable Expected) {world : World}
    (hworld : Good world) (reference : Option Reference) :
    (∃ verdict, rules.solved world puzzle reference = .ok verdict) ↔ Readable world := by
  refine ⟨?_, fun hread => h.judges hworld hread reference⟩
  rintro ⟨verdict, hverdict⟩
  refine Classical.byContradiction fun hread => ?_
  obtain ⟨fault, hfault, _⟩ := h.dismisses hworld hread reference
  rw [hverdict] at hfault
  cases hfault

/-- Every world that is reached is good. -/
theorem good_replayFrom (h : FaultsAt rules puzzle Good Readable Expected) {world final : World}
    (hworld : Good world) {index : Nat} {actions : List Action}
    (hfinal : replayFrom rules puzzle world index actions = .ok final) : Good final := by
  induction actions generalizing world index with
  | nil =>
    cases hfinal
    exact hworld
  | cons action actions ih =>
    rcases h.next_cases hworld action with ⟨next, hnext, _, heq⟩ | ⟨fault, _, _, heq⟩
    · rw [heq] at hfinal
      exact ih hnext hfinal
    · rw [heq] at hfinal
      cases hfinal

/-- Every world on the way through some actions is readable. -/
def ReadableAlong (rules : Rules) (puzzle : Puzzle) (Readable : World → Prop) (world : World)
    (index : Nat) (actions : List Action) : Prop :=
  ∀ n ≤ actions.length, ∀ reached,
    replayFrom rules puzzle world index (actions.take n) = .ok reached → Readable reached

theorem ReadableAlong.start {world : World} {index : Nat} {actions : List Action}
    (h : ReadableAlong rules puzzle Readable world index actions) : Readable world :=
  h 0 (Nat.zero_le _) world rfl

/-- What is reached along an action and others is the start and what is reached after it. -/
theorem readableAlong_cons {world : World} {index : Nat} {action : Action}
    {actions : List Action} :
    ReadableAlong rules puzzle Readable world index (action :: actions) ↔
      Readable world ∧ ∀ n ≤ actions.length, ∀ reached,
        replayFrom rules puzzle world index (action :: actions.take n) = .ok reached →
          Readable reached := by
  constructor
  · intro h
    exact ⟨h.start, fun n hn => h (n + 1) (Nat.succ_le_succ hn)⟩
  · rintro ⟨hworld, h⟩ n hn
    cases n with
    | zero =>
      rintro reached ⟨⟩
      exact hworld
    | succ n => exact h n (Nat.le_of_succ_le_succ hn)

/-- Actions can be played and their end judged exactly if all worlds on the way are readable. By
induction on the actions; what the rest of them needs includes that the start is readable. -/
theorem replayFrom_iff (h : FaultsAt rules puzzle Good Readable Expected) {world : World}
    (hworld : Good world) (index : Nat) (actions : List Action) (reference : Option Reference) :
    (∃ final verdict, replayFrom rules puzzle world index actions = .ok final ∧
      rules.solved final puzzle reference = .ok verdict) ↔
    ReadableAlong rules puzzle Readable world index actions := by
  induction actions generalizing world index with
  | nil =>
    constructor
    · rintro ⟨final, verdict, ⟨⟩, hverdict⟩ n _ reached hreached
      rw [List.take_nil] at hreached
      cases hreached
      exact (h.judges_iff hworld reference).1 ⟨verdict, hverdict⟩
    · intro hread
      obtain ⟨verdict, hverdict⟩ := h.judges hworld hread.start reference
      exact ⟨world, verdict, rfl, hverdict⟩
  | cons action actions ih =>
    rw [readableAlong_cons]
    rcases h.next_cases hworld action with ⟨next, hnext, hback, heq⟩ | ⟨fault, hread, _, heq⟩
    · simp only [heq]
      rw [ih hnext]
      exact ⟨fun hread => ⟨hback hread.start, hread⟩, And.right⟩
    · simp only [heq]
      constructor
      · rintro ⟨final, verdict, ⟨⟩, _⟩
      · rintro ⟨hworldRead, _⟩
        exact absurd hworldRead hread

/-- Actions that cannot be played fail as expected, and so does judging their end. -/
theorem replayFrom_refuses (h : FaultsAt rules puzzle Good Readable Expected) {world : World}
    (hworld : Good world) (index : Nat) (actions : List Action) :
    (∀ fault, replayFrom rules puzzle world index actions = .error fault →
      Expected fault.fault) ∧
    ∀ final reference fault, replayFrom rules puzzle world index actions = .ok final →
      rules.solved final puzzle reference = .error fault → Expected fault := by
  induction actions generalizing world index with
  | nil =>
    refine ⟨?_, ?_⟩
    · rintro fault ⟨⟩
    rintro final reference fault ⟨⟩ hfault
    have hread : ¬ Readable world := fun hread => by
      obtain ⟨verdict, hverdict⟩ := h.judges hworld hread reference
      rw [hfault] at hverdict
      cases hverdict
    obtain ⟨dismissal, hdismissal, hexpected⟩ := h.dismisses hworld hread reference
    rw [hfault] at hdismissal
    cases hdismissal
    exact hexpected
  | cons action actions ih =>
    rcases h.next_cases hworld action with ⟨next, hnext, _, heq⟩ | ⟨fault, _, hexpected, heq⟩
    · simp only [heq]
      exact ih hnext (index + 1)
    · simp only [heq]
      constructor
      · rintro located ⟨⟩
        exact hexpected
      · rintro final reference fault ⟨⟩

end FaultsAt

/-! ## The solver -/

namespace Solver

/-- The sides are canonical texts of these polynomials, which can be expressed in the unknown. -/
structure Written (authored : AuthoredEquation) (equation : Equation) (lhs rhs : Laurent) :
    Prop where
  lhs_eq : equation.lhs = lhs.render authored.unknown equation.implicit
  rhs_eq : equation.rhs = rhs.render authored.unknown equation.implicit
  lhs_within : lhs.Within (Expressible authored.unknown)
  rhs_within : rhs.Within (Expressible authored.unknown)

/-- The sides are canonical texts of polynomials with degrees that the reader accepts. -/
def Readable (puzzle : Puzzle) (equation : Equation) : Prop :=
  ∃ authored lhs rhs, puzzle.equation = some authored ∧
    equation.lhs = lhs.render authored.unknown equation.implicit ∧
    equation.rhs = rhs.render authored.unknown equation.implicit ∧ Legible lhs ∧ Legible rhs

/-- The fault of a text with an exponent beyond those that the reader accepts. -/
def BeyondReader (fault : Fault) : Prop :=
  ∃ text, fault = ⟨.equation, .badExpression text Failure.exponentRange.message⟩

variable {puzzle : Puzzle} {authored : AuthoredEquation} {equation : Equation}
  {lhs rhs : Laurent}

theorem readSide_render {x : String} {p : Laurent} (h : p.Within (Expressible x))
    (implicit : Bool) : readSide (p.render x implicit) x = if Legible p then .ok p
      else .error ⟨.equation, .badExpression (p.render x implicit)
        Failure.exponentRange.message⟩ := by
  rw [readSide, ofText_render p implicit h.writable]
  by_cases hp : Legible p
  · rw [if_pos hp, if_pos hp]
  · rw [if_neg hp, if_neg hp]

/-- What is written as a legible polynomial is written as no other. -/
theorem legible_of_render {x : String} {p q : Laurent} {implicit : Bool}
    (hp : p.Within (Expressible x)) (hq : Legible q)
    (heq : p.render x implicit = q.render x implicit) : Legible p := by
  by_cases hx : Token.IsName x
  · have hwritable : Token.Writable x q.terms.entries := fun t ht => by
      obtain ⟨hlow, hhigh⟩ := hq t ht
      have hlimit : wordLimit = 9223372036854775807 := rfl
      exact ⟨.inl hx, by omega⟩
    have hread := ofText_render p implicit hp.writable
    rw [heq, ofText_render q implicit hwritable, if_pos hq] at hread
    refine Classical.byContradiction fun hnot => ?_
    rw [if_neg hnot] at hread
    cases hread
  · intro t ht
    have hzero : t.1 = 0 := (hp t ht).1.resolve_left hx
    omega

theorem Written.readable_iff (h : Written authored equation lhs rhs)
    (hauthored : puzzle.equation = some authored) :
    Readable puzzle equation ↔ Legible lhs ∧ Legible rhs := by
  constructor
  · rintro ⟨other, l, r, hother, hl, hr, hlegible⟩
    obtain rfl : authored = other := Option.some.inj (hauthored.symm.trans hother)
    exact ⟨legible_of_render h.lhs_within hlegible.1 (h.lhs_eq.symm.trans hl),
      legible_of_render h.rhs_within hlegible.2 (h.rhs_eq.symm.trans hr)⟩
  · rintro ⟨hlhs, hrhs⟩
    exact ⟨authored, lhs, rhs, hauthored, h.lhs_eq, h.rhs_eq, hlhs, hrhs⟩

theorem within_onBoth {D : Int → Prop} {sides next : Sides} {operand : Laurent}
    {operation : Laurent → Laurent → Except Failure Laurent}
    (h : onBoth operation sides operand = .ok next)
    (hoperation : ∀ {p q r : Laurent}, p.Within D → q.Within D → operation p q = .ok r →
      r.Within D)
    (hlhs : sides.lhs.Within D) (hrhs : sides.rhs.Within D) (hoperand : operand.Within D) :
    next.lhs.Within D ∧ next.rhs.Within D := by
  unfold onBoth at h
  split at h
  · cases h
  · next l hl =>
    split at h
    · cases h
    · next r hr =>
      cases h
      exact ⟨hoperation hlhs hoperand hl, hoperation hrhs hoperand hr⟩

/-- Operations on sides with some degrees lead to sides with these degrees. -/
theorem within_apply {D : Int → Prop} (hD : DegreeSet D) {sides next : Sides} {operand : Laurent}
    {operator : Operator} (h : sides.apply operator operand = .ok next)
    (hlhs : sides.lhs.Within D) (hrhs : sides.rhs.Within D) (hoperand : operand.Within D) :
    next.lhs.Within D ∧ next.rhs.Within D := by
  unfold Sides.apply at h
  cases operator with
  | add => exact within_onBoth h (·.add · ·) hlhs hrhs hoperand
  | subtract => exact within_onBoth h (·.sub · ·) hlhs hrhs hoperand
  | multiply =>
    simp only at h
    split at h
    · cases h
    · split at h
      · cases h
      · exact within_onBoth h (·.mul hD · ·) hlhs hrhs hoperand
  | divide =>
    simp only at h
    split at h
    · cases h
    · exact within_onBoth h (·.div hD · ·) hlhs hrhs hoperand

theorem within_attempt {sides next : Sides} {operator : Operator} {operand x : String}
    (h : attempt sides operator operand x = .ok next)
    (hlhs : sides.lhs.Within (Expressible x)) (hrhs : sides.rhs.Within (Expressible x)) :
    next.lhs.Within (Expressible x) ∧ next.rhs.Within (Expressible x) := by
  unfold attempt at h
  split at h
  · next p hp => exact within_apply (degreeSet_expressible x) h hlhs hrhs (within_of_ofText hp)
  · cases h

/-- The authored sides can be read, so that a solution can be checked in them. -/
def Checkable (authored : AuthoredEquation) : Prop :=
  ∃ lhs rhs, readSide authored.lhs authored.unknown = .ok lhs ∧
    readSide authored.rhs authored.unknown = .ok rhs

theorem authoredOf_eq (h : puzzle.equation = some authored) : authoredOf puzzle = .ok authored := by
  rw [authoredOf, h]

theorem equation_of_authoredOf (h : authoredOf puzzle = .ok authored) :
    puzzle.equation = some authored := by
  unfold authoredOf at h
  split at h
  · next found hfound =>
    cases h
    exact hfound
  · cases h

theorem record_written (h : Written authored equation lhs rhs) (operator : Operator)
    (operand : String) (applied : Bool) :
    Written authored (record equation operator operand applied) lhs rhs :=
  ⟨h.lhs_eq, h.rhs_eq, h.lhs_within, h.rhs_within⟩

theorem check_eq_ok (hcheck : Checkable authored) (value : Fraction) :
    ∃ result, check authored value = .ok result := by
  obtain ⟨l, r, hl, hr⟩ := hcheck
  unfold check
  rw [hl, hr]
  exact ⟨_, rfl⟩

/-- The sides are read one after the other, and both are found if they are legible. -/
theorem readSides_of_legible (h : Written authored equation lhs rhs)
    (hlegible : Legible lhs ∧ Legible rhs) :
    readSide equation.lhs authored.unknown = .ok lhs ∧
      readSide equation.rhs authored.unknown = .ok rhs := by
  rw [h.lhs_eq, h.rhs_eq, readSide_render h.lhs_within, readSide_render h.rhs_within,
    if_pos hlegible.1, if_pos hlegible.2]
  exact ⟨rfl, rfl⟩

/-- If not both are, whatever reads the sides fails. -/
theorem readSides_of_not_legible {α : Type} (h : Written authored equation lhs rhs)
    (hnot : ¬ (Legible lhs ∧ Legible rhs)) (next : Laurent → Laurent → Except Fault α) :
    ∃ fault, ((readSide equation.lhs authored.unknown).bind fun l =>
      (readSide equation.rhs authored.unknown).bind fun r => next l r) = .error fault ∧
      BeyondReader fault := by
  rw [h.lhs_eq, h.rhs_eq, readSide_render h.lhs_within, readSide_render h.rhs_within]
  by_cases hlhs : Legible lhs
  · rw [if_pos hlhs, if_neg fun hrhs => hnot ⟨hlhs, hrhs⟩]
    exact ⟨_, rfl, _, rfl⟩
  · rw [if_neg hlhs]
    exact ⟨_, rfl, _, rfl⟩

/-- On readable sides every operation is played, and the sides are canonical text again. -/
theorem operate_of_legible (h : Written authored equation lhs rhs)
    (hauthored : puzzle.equation = some authored) (hcheck : Checkable authored)
    (hlegible : Legible lhs ∧ Legible rhs) (operator : Operator) (operand : String) :
    ∃ next signal l r, operate equation operator operand puzzle = .ok (next, signal) ∧
      Written authored next l r := by
  obtain ⟨hl, hr⟩ := readSides_of_legible h hlegible
  unfold operate
  rw [authoredOf_eq hauthored]
  simp only [Bind.bind, Except.bind, hl, hr]
  split
  · exact ⟨_, _, lhs, rhs, rfl, record_written h operator operand false⟩
  · next sides hattempt =>
    obtain ⟨hwithinLhs, hwithinRhs⟩ := within_attempt hattempt h.lhs_within h.rhs_within
    split
    · exact ⟨_, _, sides.lhs, sides.rhs, rfl, rfl, rfl, hwithinLhs, hwithinRhs⟩
    · next value _ =>
      split
      · obtain ⟨result, hresult⟩ := check_eq_ok hcheck value
        rw [hresult]
        exact ⟨_, _, sides.lhs, sides.rhs, rfl, rfl, rfl, hwithinLhs, hwithinRhs⟩
      · exact ⟨_, _, sides.lhs, sides.rhs, rfl, rfl, rfl, hwithinLhs, hwithinRhs⟩

/-- Sides that are not readable refuse every operation. -/
theorem operate_of_not_legible (h : Written authored equation lhs rhs)
    (hauthored : puzzle.equation = some authored) (hnot : ¬ (Legible lhs ∧ Legible rhs))
    (operator : Operator) (operand : String) :
    ∃ fault, operate equation operator operand puzzle = .error fault ∧ BeyondReader fault := by
  unfold operate
  rw [authoredOf_eq hauthored]
  exact readSides_of_not_legible h hnot _

/-- The world is that of an equation whose sides are written. -/
def WrittenWorld (authored : AuthoredEquation) (world : World) : Prop :=
  ∃ equation lhs rhs, world = .equation equation ∧ Written authored equation lhs rhs

end Solver

/-- The world holds no text that the reader of expressions refuses. -/
def World.Readable (puzzle : Puzzle) : World → Prop
  | .equation sides => Solver.Readable puzzle sides
  | _ => True

theorem World.readable_of_mode {puzzle : Puzzle} {world : World} (h : world.mode ≠ .equation) :
    world.Readable puzzle := by
  cases world with
  | equation sides => exact absurd rfl h
  | _ => trivial

namespace Solver

variable {puzzle : Puzzle} {authored : AuthoredEquation}

/-- An action is an operation on both sides, or leaves the equation as it is. -/
theorem step_cases (equation : Equation) (action : Action) (puzzle : Puzzle) :
    (∃ operator operand, step (some (.equation equation)) (some action) puzzle =
      (operate equation operator operand puzzle).map fun next => ⟨.equation next.1, next.2⟩) ∨
    step (some (.equation equation)) (some action) puzzle =
      .ok (.running (.equation equation)) := by
  cases hcommand : action.command with
  | bothSides operator value =>
    refine .inl ⟨operator, Text.trim value, ?_⟩
    simp only [step, equationOf, hcommand, Option.map_some, Bind.bind, Except.bind]
    cases operate equation operator (Text.trim value) puzzle <;> rfl
  | _ =>
    right
    simp only [step, equationOf, hcommand, Option.map_some, Bind.bind, Except.bind]
    rfl

theorem solved_eq (hauthored : puzzle.equation = some authored) (equation : Equation)
    (reference : Option Reference) : solved (.equation equation) puzzle reference =
      (readSide equation.lhs authored.unknown).bind fun l =>
        (readSide equation.rhs authored.unknown).bind fun r => .ok (solution? l r).isSome := by
  rw [solved, authoredOf_eq hauthored]
  rfl

/-- **The solver faults at sides beyond its reader only.** -/
theorem faultsAt (hauthored : puzzle.equation = some authored) (hcheck : Checkable authored) :
    FaultsAt rules puzzle (WrittenWorld authored) (World.Readable puzzle) BeyondReader where
  plays := by
    rintro _ ⟨equation, lhs, rhs, rfl, hwritten⟩ hread action
    have hlegible := (hwritten.readable_iff hauthored).1 hread
    rcases step_cases equation action puzzle with ⟨operator, operand, hstep⟩ | hstep
    · obtain ⟨next, signal, l, r, hoperate, hnext⟩ :=
        operate_of_legible hwritten hauthored hcheck hlegible operator operand
      rw [hoperate] at hstep
      exact ⟨_, hstep, next, l, r, rfl, hnext⟩
    · exact ⟨_, hstep, equation, lhs, rhs, rfl, hwritten⟩
  sticks := by
    rintro _ action t ⟨equation, lhs, rhs, rfl, hwritten⟩ hnot ht
    have hlegible := mt (hwritten.readable_iff hauthored).2 hnot
    rcases step_cases equation action puzzle with ⟨operator, operand, hstep⟩ | hstep
    · obtain ⟨fault, hfault, _⟩ :=
        operate_of_not_legible hwritten hauthored hlegible operator operand
      rw [hfault] at hstep
      cases hstep.symm.trans ht
    · cases hstep.symm.trans ht
      rfl
  refuses := by
    rintro _ action fault ⟨equation, lhs, rhs, rfl, hwritten⟩ hfault
    rcases step_cases equation action puzzle with ⟨operator, operand, hstep⟩ | hstep
    · by_cases hlegible : Legible lhs ∧ Legible rhs
      · obtain ⟨next, signal, l, r, hoperate, _⟩ :=
          operate_of_legible hwritten hauthored hcheck hlegible operator operand
        rw [hoperate] at hstep
        cases hstep.symm.trans hfault
      · obtain ⟨refusal, hrefusal, hbeyond⟩ :=
          operate_of_not_legible hwritten hauthored hlegible operator operand
        rw [hrefusal] at hstep
        cases hstep.symm.trans hfault
        exact hbeyond
    · cases hstep.symm.trans hfault
  judges := by
    rintro _ ⟨equation, lhs, rhs, rfl, hwritten⟩ hread reference
    obtain ⟨hl, hr⟩ := readSides_of_legible hwritten ((hwritten.readable_iff hauthored).1 hread)
    refine ⟨(solution? lhs rhs).isSome, ?_⟩
    show solved (.equation equation) puzzle reference = _
    rw [solved_eq hauthored, hl, hr]
    rfl
  dismisses := by
    rintro _ ⟨equation, lhs, rhs, rfl, hwritten⟩ hnot reference
    have hlegible := mt (hwritten.readable_iff hauthored).2 hnot
    show ∃ fault, solved (.equation equation) puzzle reference = _ ∧ _
    rw [solved_eq hauthored]
    exact readSides_of_not_legible hwritten hlegible _

theorem ofText_of_readSide {text x : String} {p : Laurent} (h : readSide text x = .ok p) :
    Laurent.ofText text x = .ok p := by
  unfold readSide at h
  split at h
  · next q hq =>
    cases h
    exact hq
  · cases h

/-- A puzzle that starts has sides that can be read, and starts with their canonical texts. -/
theorem start_written {equation : Equation} (h : start puzzle = .ok equation) :
    ∃ authored lhs rhs, puzzle.equation = some authored ∧ Checkable authored ∧
      Written authored equation lhs rhs := by
  obtain ⟨authored, hauthored, h⟩ := bind_eq_ok h
  obtain ⟨lhs, hlhs, h⟩ := bind_eq_ok h
  obtain ⟨rhs, hrhs, h⟩ := bind_eq_ok h
  obtain ⟨sign, _, h⟩ := bind_eq_ok h
  cases h
  exact ⟨authored, lhs, rhs, equation_of_authoredOf hauthored, ⟨lhs, rhs, hlhs, hrhs⟩, rfl, rfl,
    within_of_ofText (ofText_of_readSide hlhs), within_of_ofText (ofText_of_readSide hrhs)⟩

end Solver

/-! ## All modes -/

/-- Where the rules of a mode fault, and that the start of a puzzle is a good world for that. Worlds
of the modes without an equation are all readable. -/
theorem faultsAt_ofMode {mode : Mode} {puzzle : Puzzle} {first : World}
    (hstart : (Rules.ofMode mode).startState puzzle = .ok first) :
    ∃ Good, FaultsAt (.ofMode mode) puzzle Good (World.Readable puzzle) Solver.BeyondReader ∧
      Good first ∧ (mode ≠ .equation → ∀ world, Good world → World.Readable puzzle world) := by
  have hread (hmode : mode ≠ .equation) (world : World) (h : world.mode = mode) :
      World.Readable puzzle world := World.readable_of_mode (h ▸ hmode)
  obtain ⟨t, ht, rfl⟩ := map_eq_ok hstart
  cases mode with
  | maze =>
    obtain ⟨robot, _, hrobot⟩ := bind_eq_ok ht
    cases hrobot
    refine ⟨fun world => world.mode = .maze, .of_total (hread nofun) ?_ ?_, rfl, hread⟩
    · intro world hworld action
      cases world with
      | maze robot => exact ⟨_, rfl, rfl⟩
      | _ => cases hworld
    · intro world hworld reference
      cases world with
      | maze robot => exact ⟨_, rfl⟩
      | _ => cases hworld
  | turtle =>
    cases ht
    refine ⟨fun world => world.mode = .turtle, .of_total (hread nofun) ?_ ?_, rfl, hread⟩
    · intro world hworld action
      cases world with
      | turtle turtle => exact ⟨_, rfl, rfl⟩
      | _ => cases hworld
    · intro world hworld reference
      cases world with
      | turtle turtle => cases reference <;> exact ⟨_, rfl⟩
      | _ => cases hworld
  | math =>
    cases ht
    refine ⟨fun world => world.mode = .math, .of_total (hread nofun) ?_ ?_, rfl, hread⟩
    · intro world hworld action
      cases world with
      | math memory => exact ⟨_, rfl, rfl⟩
      | _ => cases hworld
    · intro world hworld reference
      cases world with
      | math memory => exact ⟨_, rfl⟩
      | _ => cases hworld
  | equation =>
    obtain ⟨equation, hequation, hdone⟩ := bind_eq_ok ht
    cases hdone
    obtain ⟨authored, lhs, rhs, hauthored, hcheck, hwritten⟩ := Solver.start_written hequation
    exact ⟨Solver.WrittenWorld authored, Solver.faultsAt hauthored hcheck,
      ⟨equation, lhs, rhs, rfl, hwritten⟩, fun hne => absurd rfl hne⟩

/-- **What a learner does faults at unreadable sides only.** In the modes without an equation every
list of actions can be played from the start of a puzzle and its end judged. In all modes it can
exactly if every world on the way is readable, which for an equation means that its sides are
canonical texts of polynomials with degrees from -16 to 16; and every fault is that of a side with
an exponent beyond. -/
theorem faults_only_beyond_reader {mode : Mode} {puzzle : Puzzle} {first : World}
    (hstart : (Rules.ofMode mode).startState puzzle = .ok first) (actions : List Action)
    (reference : Option Reference) :
    (mode ≠ .equation → ∃ final verdict, replay (.ofMode mode) puzzle actions = .ok final ∧
      (Rules.ofMode mode).solved final puzzle reference = .ok verdict) ∧
    ((∃ final verdict, replay (.ofMode mode) puzzle actions = .ok final ∧
        (Rules.ofMode mode).solved final puzzle reference = .ok verdict) ↔
      ∀ n ≤ actions.length, ∀ reached,
        replay (.ofMode mode) puzzle (actions.take n) = .ok reached →
          reached.Readable puzzle) ∧
    (∀ fault, replay (.ofMode mode) puzzle actions = .error fault →
      Solver.BeyondReader fault.fault) ∧
    ∀ final fault, replay (.ofMode mode) puzzle actions = .ok final →
      (Rules.ofMode mode).solved final puzzle reference = .error fault →
        Solver.BeyondReader fault := by
  obtain ⟨Good, hfaults, hfirst, hread⟩ := faultsAt_ofMode hstart
  have hreplay (actions : List Action) : replay (.ofMode mode) puzzle actions =
      replayFrom (.ofMode mode) puzzle first 0 actions := by rw [replay, hstart]
  simp only [hreplay]
  have hiff := hfaults.replayFrom_iff hfirst 0 actions reference
  obtain ⟨hrefuses, hdismisses⟩ := hfaults.replayFrom_refuses hfirst 0 actions
  refine ⟨fun hmode => hiff.2 ?_, hiff, hrefuses, fun final fault => hdismisses final _ fault⟩
  exact fun n _ reached hreached => hread hmode reached (hfaults.good_replayFrom hfirst hreached)

/-! ## A learner beyond the reader -/

/-- The equation `x^16 = 1`. -/
def highPower : Puzzle :=
  { id := "high", mode := .equation, equation := some ⟨"x^16", "1", "x", "=", true⟩ }

/-- Multiply both sides by the unknown. -/
def timesUnknown : Action := { command := .bothSides .multiply "x" }

/-- Its start. -/
def highPowerStart : World :=
  .equation { lhs := "x^16", rhs := "1", sign := .eq, implicit := true, history := [],
              latest := none, check := none }

/-- The equation after the multiplication, `x^17 = x`. -/
def highPowerRaised : World :=
  .equation { lhs := "x^17", rhs := "x", sign := .eq, implicit := true,
              history := [⟨"x^16", .eq, "1"⟩], latest := some ⟨.multiply, "x", true⟩,
              check := none }

/-- The fault of reading its left side. -/
def highPowerFault : Fault := ⟨.equation, .badExpression "x^17" "exponent out of range"⟩

theorem startState_highPower :
    (Rules.ofMode .equation).startState highPower = .ok highPowerStart := by cbv

theorem replay_highPower :
    replay (.ofMode .equation) highPower [timesUnknown] = .ok highPowerRaised := by cbv

theorem solved_highPowerRaised :
    (Rules.ofMode .equation).solved highPowerRaised highPower none = .error highPowerFault := by
  have hread : Laurent.ofText "x^17" "x" = .error .exponentRange := by cbv
  show Solver.solved (.equation _) highPower none = _
  rw [Solver.solved_eq rfl, Solver.readSide, hread]
  rfl

/-- Multiplying by the unknown leads to a world that is not readable: the victory cannot be judged
there, and the fault is that of an exponent. -/
theorem faults_only_beyond_reader_highPower :
    (Rules.ofMode .equation).startState highPower = .ok highPowerStart ∧
    ¬ (∀ n ≤ [timesUnknown].length, ∀ reached,
      replay (.ofMode .equation) highPower ([timesUnknown].take n) = .ok reached →
        reached.Readable highPower) ∧
    Solver.BeyondReader highPowerFault := by
  obtain ⟨_, hiff, _, hbeyond⟩ :=
    faults_only_beyond_reader startState_highPower [timesUnknown] none
  refine ⟨startState_highPower, fun hread => ?_,
    hbeyond _ _ replay_highPower solved_highPowerRaised⟩
  obtain ⟨final, verdict, hfinal, hverdict⟩ := hiff.2 hread
  rw [replay_highPower] at hfinal
  cases hfinal
  rw [solved_highPowerRaised] at hverdict
  cases hverdict

/-- A learner who multiplies `x^16 = 1` by `x` cannot be judged, and faults with the next
operation. -/
theorem learner_faults_at_highPower :
    (Rules.ofMode .equation).startState highPower = .ok highPowerStart ∧
    replay (.ofMode .equation) highPower [timesUnknown] = .ok highPowerRaised ∧
    (Rules.ofMode .equation).solved highPowerRaised highPower none = .error highPowerFault ∧
    replay (.ofMode .equation) highPower [timesUnknown, timesUnknown] =
      .error (highPowerFault.at 1) :=
  ⟨startState_highPower, replay_highPower, solved_highPowerRaised, by cbv⟩

end PuzzlePlayback
