import PuzzlePlayback.Proofs.ExactPolynomials
import PuzzlePlayback.Proofs.SameSolutions

/-!
# Every operation is on record

The solver records each operation on both sides, whether it is carried out or refused: the sides
before it become a line of the history, and the operation becomes the latest one. What is refused
changes nothing else.

`Refused` lists the causes for which an operation is refused, and `refused_iff` says that the list
is complete: what a side fails with, beyond the divisors, is an overflow or an exponent out of
range. `Effect` says all that an action does to an equation, and `effect_step` that the transition
does no more. The record of a run (`OnRecord`) follows by induction on the actions, from the last
one back.

Main result: `history_is_complete`.
-/

namespace PuzzlePlayback

/-- Is this an operation on both sides? -/
def Action.isOperation (action : Action) : Bool :=
  match action.command with
  | .bothSides _ _ => true
  | _ => false

theorem Action.isOperation_iff {action : Action} : action.isOperation = true ↔
    ∃ operator value, action.command = .bothSides operator value := by
  unfold isOperation
  split
  · next operator value hcommand => exact iff_of_true rfl ⟨operator, value, hcommand⟩
  · next hnot => exact iff_of_false nofun fun ⟨operator, value, h⟩ => hnot operator value h

namespace Calculator.Laurent

theorem add_eq_error {p q : Laurent} {e : Failure} (h : p.add q = .error e) : e = .overflow := by
  obtain ⟨t, _, sum, hterm⟩ := foldlM_eq_error h
  exact addTerm_eq_error hterm

end Calculator.Laurent

namespace Solver

open Calculator

variable {sides next : Sides} {operator : Operator} {p : Laurent}

/-! ## Refused operations -/

/-- What an operator computes on one side. -/
def compute : Operator → Laurent → Laurent → Except Failure Laurent
  | .add => Laurent.add
  | .subtract => Laurent.sub
  | .multiply => Laurent.mul
  | .divide => Laurent.div

/-- The causes for which an operand is refused. -/
inductive Impossible (sides : Sides) (p : Laurent) : Operator → Prop
  | zeroFactor : p.constant? = some .zero → Impossible sides p .multiply
  | variableFactor : sides.sign ≠ .eq → p.constant? = none → Impossible sides p .multiply
  | variableDivisor : sides.sign ≠ .eq → p.constant? = none → Impossible sides p .divide
  | zeroDivisor : p.terms.entries = [] → Impossible sides p .divide
  | compoundDivisor : 2 ≤ p.terms.entries.length → Impossible sides p .divide
  | outOfRange {operator : Operator} {side : Laurent} {e : Failure} :
      side = sides.lhs ∨ side = sides.rhs → compute operator side p = .error e →
      e = .overflow ∨ e = .exponentRange → Impossible sides p operator

/-- The causes for which an operation is refused: its operand cannot be read, or is impossible. -/
inductive Refused (x : String) (sides : Sides) (operator : Operator) (operand : String) : Prop
  | unread {e : Failure} : Laurent.ofText operand x = .error e → Refused x sides operator operand
  | impossible {p : Laurent} : Laurent.ofText operand x = .ok p → Impossible sides p operator →
      Refused x sides operator operand

theorem onBoth_eq_error {operation : Laurent → Laurent → Except Failure Laurent}
    {refusal : Refusal} (h : onBoth operation sides p = .error refusal) :
    ∃ side e, (side = sides.lhs ∨ side = sides.rhs) ∧ operation side p = .error e := by
  unfold onBoth at h
  split at h
  · next e he => exact ⟨_, e, .inl rfl, he⟩
  · split at h
    · next e he => exact ⟨_, e, .inr rfl, he⟩
    · cases h

theorem scaledSign_eq_error {sign : Relation} {refusal : Refusal}
    (h : scaledSign sign p = .error refusal) : sign ≠ .eq ∧ p.constant? = none := by
  unfold scaledSign at h
  split at h
  · cases h
  · next hne =>
    split at h
    · next hnone => exact ⟨hne, hnone⟩
    · cases h

/-- A side fails with an overflow or an exponent out of range, unless the divisor is to blame. -/
theorem impossible_of_compute {side : Laurent} {e : Failure}
    (hside : side = sides.lhs ∨ side = sides.rhs) (h : compute operator side p = .error e) :
    Impossible sides p operator := by
  cases operator with
  | add => exact .outOfRange hside h (.inl (Laurent.add_eq_error h))
  | subtract => exact .outOfRange hside h (.inl (Laurent.add_eq_error h))
  | multiply => exact .outOfRange hside h (Laurent.mul_eq_error h)
  | divide =>
    rcases Laurent.div_cases side p with ⟨hnone, _⟩ | ⟨_, hsingle⟩ | ⟨hseveral, _⟩
    · exact .zeroDivisor (List.eq_nil_of_length_eq_zero hnone)
    · exact .outOfRange hside h (hsingle e h)
    · exact .compoundDivisor hseveral

/-- What an operation fails with, before and on the sides. -/
theorem impossible_of_apply {refusal : Refusal} (h : sides.apply operator p = .error refusal) :
    Impossible sides p operator := by
  have hboth {sign : Relation} (h : onBoth (compute operator) { sides with sign } p =
      .error refusal) : Impossible sides p operator := by
    obtain ⟨side, e, hside, he⟩ := onBoth_eq_error h
    exact impossible_of_compute hside he
  unfold Sides.apply at h
  cases operator with
  | add => exact hboth h
  | subtract => exact hboth h
  | multiply =>
    dsimp only at h
    split at h
    · next hsign =>
      obtain ⟨hne, hnone⟩ := scaledSign_eq_error hsign
      exact .variableFactor hne hnone
    · split at h
      · next hzero => exact .zeroFactor hzero
      · exact hboth h
  | divide =>
    dsimp only at h
    split at h
    · next hsign =>
      obtain ⟨hne, hnone⟩ := scaledSign_eq_error hsign
      exact .variableDivisor hne hnone
    · exact hboth h

/-- Whatever is carried out is computed on both sides, with the relation scaled before. -/
theorem Applied.onBoth (h : Applied sides p next operator) :
    ∃ sign, onBoth (compute operator) { sides with sign } p = .ok next := by
  cases h with
  | added hboth => exact ⟨sides.sign, hboth⟩
  | subtracted hboth => exact ⟨sides.sign, hboth⟩
  | multiplied _ _ hboth => exact ⟨_, hboth⟩
  | divided _ hboth => exact ⟨_, hboth⟩

theorem Applied.computed (h : Applied sides p next operator) :
    compute operator sides.lhs p = .ok next.lhs ∧ compute operator sides.rhs p = .ok next.rhs := by
  obtain ⟨sign, hboth⟩ := h.onBoth
  obtain ⟨hlhs, hrhs, _⟩ := onBoth_eq_ok hboth
  exact ⟨hlhs, hrhs⟩

/-- Nothing that is carried out is impossible. -/
theorem Applied.not_impossible (h : Applied sides p next operator) :
    ¬ Impossible sides p operator := by
  have hvariable {sign : Relation} (hsign : scaledSign sides.sign p = .ok sign)
      (hne : sides.sign ≠ .eq) (hnone : p.constant? = none) : False := by
    obtain ⟨c, hc, _⟩ := constant_of_scaledSign hsign hne
    cases hnone.symm.trans hc
  intro himpossible
  cases himpossible with
  | zeroFactor hzero =>
    cases h with
    | multiplied _ hfactor _ => exact hfactor hzero
  | variableFactor hne hnone =>
    cases h with
    | multiplied hsign _ _ => exact hvariable hsign hne hnone
  | variableDivisor hne hnone =>
    cases h with
    | divided hsign _ => exact hvariable hsign hne hnone
  | zeroDivisor hempty =>
    have hdiv : sides.lhs.div p = .error .divisionByZero := by simp only [Laurent.div, hempty]
    cases hdiv.symm.trans h.computed.1
  | compoundDivisor hseveral =>
    rcases Laurent.div_cases sides.lhs p with ⟨hlength, _⟩ | ⟨hlength, _⟩ | ⟨_, hdiv⟩
    · omega
    · omega
    · cases hdiv.symm.trans h.computed.1
  | outOfRange hside he _ =>
    rcases hside with rfl | rfl
    · cases he.symm.trans h.computed.1
    · cases he.symm.trans h.computed.2

/-- **The causes are complete.** -/
theorem refused_iff {operand x : String} : Refused x sides operator operand ↔
    ∃ refusal, attempt sides operator operand x = .error refusal := by
  unfold attempt
  cases hread : Laurent.ofText operand x with
  | error e => exact iff_of_true (.unread hread) ⟨_, rfl⟩
  | ok p =>
    dsimp only
    constructor
    · rintro (hunread | ⟨hother, himpossible⟩)
      · cases hread.symm.trans hunread
      · cases hread.symm.trans hother
        cases happly : sides.apply operator p with
        | error refusal => exact ⟨refusal, rfl⟩
        | ok next => exact absurd himpossible (applied_of_apply happly).not_impossible
    · rintro ⟨refusal, h⟩
      exact .impossible hread (impossible_of_apply h)

/-! ## One action -/

variable {puzzle : Puzzle} {authored : AuthoredEquation} {equation : Equation}

/-- The line that the sides of an equation become. -/
def line (equation : Equation) : EquationLine := ⟨equation.lhs, equation.sign, equation.rhs⟩

/-- The operation is refused on the sides as they are read. -/
def Refuses (authored : AuthoredEquation) (equation : Equation) (operator : Operator)
    (operand : String) : Prop :=
  ∃ lhs rhs, readSide equation.lhs authored.unknown = .ok lhs ∧
    readSide equation.rhs authored.unknown = .ok rhs ∧
    Refused authored.unknown ⟨lhs, rhs, equation.sign⟩ operator operand

/-- All that an action does to an equation. -/
inductive Effect (authored : AuthoredEquation) (before : Equation) (action : Action) :
    Transition → Prop
  | refused {operator : Operator} {value : String} :
      action.command = .bothSides operator value →
      Refuses authored before operator (Text.trim value) →
      Effect authored before action ⟨.equation { before with
        history := before.history ++ [line before]
        latest := some ⟨operator, Text.trim value, false⟩ }, .running⟩
  | carriedOut {operator : Operator} {value : String} {next : Equation} {signal : Signal} :
      action.command = .bothSides operator value →
      ¬ Refuses authored before operator (Text.trim value) →
      next.history = before.history ++ [line before] →
      next.latest = some ⟨operator, Text.trim value, true⟩ →
      Effect authored before action ⟨.equation next, signal⟩
  | idle : action.isOperation = false → Effect authored before action (.running (.equation before))

theorem refuses_iff {lhs rhs : Laurent} {operand : String}
    (hlhs : readSide equation.lhs authored.unknown = .ok lhs)
    (hrhs : readSide equation.rhs authored.unknown = .ok rhs) :
    Refuses authored equation operator operand ↔ ∃ refusal,
      attempt ⟨lhs, rhs, equation.sign⟩ operator operand authored.unknown = .error refusal := by
  rw [← refused_iff]
  constructor
  · rintro ⟨l, r, hl, hr, hrefused⟩
    cases hlhs.symm.trans hl
    cases hrhs.symm.trans hr
    exact hrefused
  · intro hrefused
    exact ⟨lhs, rhs, hlhs, hrhs, hrefused⟩

theorem Operated.effect {action : Action} {lhs rhs : Laurent} {value : String}
    {next : Equation × Signal} (hcommand : action.command = .bothSides operator value)
    (hlhs : readSide equation.lhs authored.unknown = .ok lhs)
    (hrhs : readSide equation.rhs authored.unknown = .ok rhs)
    (h : Operated authored equation operator (Text.trim value) ⟨lhs, rhs, equation.sign⟩ next) :
    Effect authored equation action ⟨.equation next.1, next.2⟩ := by
  have hcarried {reached : Sides} (hattempt : attempt ⟨lhs, rhs, equation.sign⟩ operator
      (Text.trim value) authored.unknown = .ok reached) :
      ¬ Refuses authored equation operator (Text.trim value) := by
    rw [refuses_iff hlhs hrhs]
    rintro ⟨refusal, hrefusal⟩
    cases hattempt.symm.trans hrefusal
  cases h with
  | refused hattempt => exact .refused hcommand ((refuses_iff hlhs hrhs).2 ⟨_, hattempt⟩)
  | unsolved hattempt _ => exact .carriedOut hcommand (hcarried hattempt) rfl rfl
  | solved hattempt _ _ _ => exact .carriedOut hcommand (hcarried hattempt) rfl rfl
  | bounded hattempt _ _ => exact .carriedOut hcommand (hcarried hattempt) rfl rfl

theorem step_of_not_operation {action : Action} (h : action.isOperation = false)
    (equation : Equation) (puzzle : Puzzle) :
    step (some (.equation equation)) (some action) puzzle =
      .ok (.running (.equation equation)) := by
  refine step_of_not_bothSides (fun operator value hcommand => ?_) equation puzzle
  cases h.symm.trans (Action.isOperation_iff.2 ⟨operator, value, hcommand⟩)

theorem effect_step {action : Action} {t : Transition} (hauthored : puzzle.equation = some authored)
    (h : rules.step (some (.equation equation)) (some action) puzzle = .ok t) :
    Effect authored equation action t := by
  have hstep : step (some (.equation equation)) (some action) puzzle = .ok t := h
  cases hoperation : action.isOperation with
  | true =>
    obtain ⟨operator, value, hcommand⟩ := Action.isOperation_iff.1 hoperation
    rw [step_bothSides hcommand] at hstep
    obtain ⟨next, hnext, rfl⟩ := map_eq_ok hstep
    obtain ⟨lhs, rhs, hlhs, hrhs, hoperated⟩ := operated hauthored hnext
    exact hoperated.effect hcommand hlhs hrhs
  | false =>
    rw [step_of_not_operation hoperation] at hstep
    cases hstep
    exact .idle hoperation

/-! ## The run -/

variable {actions : List Action} {world : World}

theorem start_of_replay (h : replay rules puzzle [] = .ok world) :
    ∃ equation, start puzzle = .ok equation ∧ world = .equation equation := by
  obtain ⟨equation, hstart⟩ := exists_start_of_replay h
  exact ⟨equation, hstart, Except.ok.inj (h.symm.trans (replay_nil hstart))⟩

/-- An equation starts with nothing on record and shows no check. -/
theorem start_blank (h : start puzzle = .ok equation) :
    equation.history = [] ∧ equation.latest = none ∧ equation.check = none := by
  obtain ⟨_, _, h⟩ := bind_eq_ok h
  obtain ⟨_, _, h⟩ := bind_eq_ok h
  obtain ⟨_, _, h⟩ := bind_eq_ok h
  obtain ⟨_, _, h⟩ := bind_eq_ok h
  cases h
  exact ⟨rfl, rfl, rfl⟩

/-- A replay of the solver ends in an equation. -/
theorem exists_equation_of_replay (h : replay rules puzzle actions = .ok world) :
    ∃ authored equation, puzzle.equation = some authored ∧ world = .equation equation := by
  induction actions using List.reverseRecOn generalizing world with
  | nil =>
    obtain ⟨equation, hstart, hworld⟩ := start_of_replay h
    obtain ⟨authored, _, _, hauthored, _⟩ := start_written hstart
    exact ⟨authored, equation, hauthored, hworld⟩
  | append_singleton actions action ih =>
    obtain ⟨_, hbefore⟩ := exists_replay_of_snoc h
    obtain ⟨authored, before, hauthored, rfl⟩ := ih hbefore
    obtain ⟨t, hstep, rfl⟩ := step_of_replay hbefore h
    cases effect_step hauthored hstep <;> exact ⟨authored, _, hauthored, rfl⟩

/-- The last action of a replay has an effect on the equation before it. -/
theorem effect_of_replay {action : Action} (hauthored : puzzle.equation = some authored)
    (h : replay rules puzzle (actions ++ [action]) = .ok world) :
    ∃ before t, replay rules puzzle actions = .ok (.equation before) ∧
      rules.step (some (.equation before)) (some action) puzzle = .ok t ∧ t.state = world ∧
      Effect authored before action t := by
  obtain ⟨_, hbefore⟩ := exists_replay_of_snoc h
  obtain ⟨_, before, _, rfl⟩ := exists_equation_of_replay hbefore
  obtain ⟨t, hstep, hstate⟩ := step_of_replay hbefore h
  exact ⟨before, t, hbefore, hstep, hstate, effect_step hauthored hstep⟩

/-- Every prefix of a replay can be replayed. -/
theorem replay_of_isPrefix {played : List Action} (hplayed : played <+: actions)
    (h : replay rules puzzle actions = .ok world) :
    ∃ before, replay rules puzzle played = .ok before := by
  obtain ⟨rest, rfl⟩ := hplayed
  induction rest using List.reverseRecOn generalizing world with
  | nil => exact ⟨world, by simpa using h⟩
  | append_singleton rest action ih =>
    rw [← List.append_assoc] at h
    obtain ⟨_, hbefore⟩ := exists_replay_of_snoc h
    exact ih hbefore

/-! ## The record -/

/-- The number of operations on both sides. -/
def operations (actions : List Action) : Nat := actions.countP Action.isOperation

theorem operations_snoc (actions : List Action) (action : Action) :
    operations (actions ++ [action]) =
      operations actions + if action.isOperation then 1 else 0 := by
  simp [operations, List.countP_append, List.countP_singleton]

/-- An operation counts among all that it comes before. -/
theorem operations_lt_of_isPrefix {before : List Action} {action : Action}
    (h : before ++ [action] <+: actions) (hoperation : action.isOperation = true) :
    operations before < operations actions := by
  have hle : operations (before ++ [action]) ≤ operations actions := h.sublist.countP_le
  rw [operations_snoc, if_pos hoperation] at hle
  exact hle

/-- The equation has every operation of some actions on record: a line for each, with the sides
just before it, and the latest one with what it came to. -/
structure OnRecord (puzzle : Puzzle) (authored : AuthoredEquation) (actions : List Action)
    (equation : Equation) : Prop where
  length : equation.history.length = operations actions
  lines : ∀ before action, before ++ [action] <+: actions → action.isOperation = true →
    ∃ prior, replay rules puzzle before = .ok (.equation prior) ∧
      equation.history[operations before]? = some (line prior)
  unplayed : operations actions = 0 → equation.latest = none
  latest : ∀ before action operator value, before ++ [action] <+: actions →
    action.command = .bothSides operator value → operations before + 1 = operations actions →
    ∃ prior applied, replay rules puzzle before = .ok (.equation prior) ∧
      equation.latest = some ⟨operator, Text.trim value, applied⟩ ∧
      (applied = false ↔ Refuses authored prior operator (Text.trim value))

theorem onRecord_start (h : start puzzle = .ok equation) :
    OnRecord puzzle authored [] equation := by
  obtain ⟨hhistory, hlatest, _⟩ := start_blank h
  have hnone {before : List Action} {action : Action} : ¬ before ++ [action] <+: [] := by simp
  constructor
  · rw [hhistory]
    rfl
  · exact fun _ _ hinitial => absurd hinitial hnone
  · exact fun _ => hlatest
  · exact fun _ _ _ _ hinitial => absurd hinitial hnone

/-- An action is idle, or is recorded with what it came to. -/
theorem Effect.recorded {before next : Equation} {action : Action} {t : Transition}
    (h : Effect authored before action t) (hstate : t.state = .equation next) :
    (action.isOperation = false ∧ next = before) ∨
    ∃ operator value applied, action.command = .bothSides operator value ∧
      next.history = before.history ++ [line before] ∧
      next.latest = some ⟨operator, Text.trim value, applied⟩ ∧
      (applied = false ↔ Refuses authored before operator (Text.trim value)) := by
  cases h with
  | refused hcommand hrefuses =>
    cases hstate
    exact .inr ⟨_, _, false, hcommand, rfl, rfl, iff_of_true rfl hrefuses⟩
  | carriedOut hcommand hcarried hhistory hlatest =>
    cases hstate
    exact .inr ⟨_, _, true, hcommand, hhistory, hlatest, iff_of_false nofun hcarried⟩
  | idle hidle =>
    cases hstate
    exact .inl ⟨hidle, rfl⟩

theorem OnRecord.idle {action : Action} (h : OnRecord puzzle authored actions equation)
    (hidle : action.isOperation = false) :
    OnRecord puzzle authored (actions ++ [action]) equation := by
  have hcount : operations (actions ++ [action]) = operations actions := by
    simp [operations_snoc, hidle]
  -- The action itself is none of the operations that the record is about.
  have hearlier {before : List Action} {other : Action}
      (hinitial : before ++ [other] <+: actions ++ [action]) (hother : other.isOperation = true) :
      before ++ [other] <+: actions := by
    rcases List.prefix_concat_iff.1 hinitial with hwhole | hinitial
    · obtain ⟨_, hsame⟩ := List.append_inj' hwhole rfl
      cases hsame
      cases hidle.symm.trans hother
    · exact hinitial
  constructor
  · rw [hcount, h.length]
  · intro before other hinitial hother
    exact h.lines before other (hearlier hinitial hother) hother
  · rw [hcount]
    exact h.unplayed
  · intro before other operator value hinitial hcommand hlast
    rw [hcount] at hlast
    have hother := Action.isOperation_iff.2 ⟨operator, value, hcommand⟩
    exact h.latest before other operator value (hearlier hinitial hother) hcommand hlast

theorem OnRecord.operation {action : Action} {operator : Operator} {value : String} {applied : Bool}
    {before next : Equation} (h : OnRecord puzzle authored actions before)
    (hreplay : replay rules puzzle actions = .ok (.equation before))
    (hcommand : action.command = .bothSides operator value)
    (hhistory : next.history = before.history ++ [line before])
    (hlatest : next.latest = some ⟨operator, Text.trim value, applied⟩)
    (happlied : applied = false ↔ Refuses authored before operator (Text.trim value)) :
    OnRecord puzzle authored (actions ++ [action]) next := by
  have hoperation := Action.isOperation_iff.2 ⟨operator, value, hcommand⟩
  have hcount : operations (actions ++ [action]) = operations actions + 1 := by
    rw [operations_snoc, if_pos hoperation]
  constructor
  · rw [hcount, hhistory, List.length_append, h.length, List.length_singleton]
  · intro earlier other hinitial hother
    rcases List.prefix_concat_iff.1 hinitial with hwhole | hinitial
    · obtain ⟨rfl, _⟩ := List.append_inj' hwhole rfl
      refine ⟨before, hreplay, ?_⟩
      rw [hhistory, ← h.length]
      exact List.getElem?_concat_length
    · -- The history grows at its end, so an earlier line keeps its place.
      obtain ⟨prior, hprior, hline⟩ := h.lines earlier other hinitial hother
      refine ⟨prior, hprior, ?_⟩
      rw [hhistory, List.getElem?_append_left, hline]
      rw [h.length]
      exact operations_lt_of_isPrefix hinitial hother
  · intro hnone
    omega
  · intro earlier other otherOperator otherValue hinitial hother hlast
    rcases List.prefix_concat_iff.1 hinitial with hwhole | hinitial
    · obtain ⟨rfl, hsame⟩ := List.append_inj' hwhole rfl
      cases hsame
      cases hcommand.symm.trans hother
      exact ⟨before, applied, hreplay, hlatest, happlied⟩
    · -- An operation before the action is no longer the last one.
      have hlt := operations_lt_of_isPrefix hinitial (Action.isOperation_iff.2 ⟨_, _, hother⟩)
      omega

/-- The record of a run. By induction on the actions from the last one back. -/
theorem onRecord_replay (hauthored : puzzle.equation = some authored)
    (h : replay rules puzzle actions = .ok (.equation equation)) :
    OnRecord puzzle authored actions equation := by
  induction actions using List.reverseRecOn generalizing equation with
  | nil =>
    obtain ⟨_, hstart, ⟨⟩⟩ := start_of_replay h
    exact onRecord_start hstart
  | append_singleton actions action ih =>
    obtain ⟨before, t, hbefore, _, hstate, heffect⟩ := effect_of_replay hauthored h
    rcases heffect.recorded hstate with
      ⟨hidle, rfl⟩ | ⟨operator, value, applied, hcommand, hhistory, hlatest, happlied⟩
    · exact (ih hbefore).idle hidle
    · exact (ih hbefore).operation hbefore hcommand hhistory hlatest happlied

/-- **The history is complete and refusals are atomic.** Where some actions can be replayed, the
equation that they lead to has every operation among them on record, with the sides just before it,
and the latest one with what it came to. Every action on the way is a step with one of three
effects: an operation that is refused is recorded and changes nothing else, one that is carried out
is recorded, and any other action changes nothing. -/
theorem history_is_complete (h : replay rules puzzle actions = .ok world) :
    ∃ authored equation, puzzle.equation = some authored ∧ world = .equation equation ∧
      OnRecord puzzle authored actions equation ∧
      ∀ before action, before ++ [action] <+: actions → ∃ prior t,
        replay rules puzzle before = .ok (.equation prior) ∧
        rules.step (some (.equation prior)) (some action) puzzle = .ok t ∧
        replay rules puzzle (before ++ [action]) = .ok t.state ∧
        Effect authored prior action t := by
  obtain ⟨authored, equation, hauthored, rfl⟩ := exists_equation_of_replay h
  refine ⟨authored, equation, hauthored, rfl, onRecord_replay hauthored h, ?_⟩
  intro before action hinitial
  obtain ⟨reached, hreached⟩ := replay_of_isPrefix hinitial h
  obtain ⟨prior, t, hprior, hstep, rfl, heffect⟩ := effect_of_replay hauthored hreached
  exact ⟨prior, t, hprior, hstep, hreached, heffect⟩

/-- Take three away from `2x + 3 = 7` and try to multiply by zero, with blanks around the
operand. -/
def blankActions : List Action :=
  [{ command := .bothSides .subtract "3" }, { command := .bothSides .multiply " 0 " }]

/-- The refused operation has a line in the history too, and it is shown without the blanks. -/
theorem history_is_complete_blank :
    ∃ equation, replay rules doubledPuzzle blankActions = .ok (.equation equation) ∧
      equation.history.length = 2 ∧
      equation.history[1]? = some (line doubledTaken) ∧
      equation.latest = some ⟨.multiply, "0", false⟩ ∧
      Effect doubled doubledTaken { command := .bothSides .multiply " 0 " }
        ⟨.equation doubledRefused, .running⟩ := by
  have htaken : replay rules doubledPuzzle [{ command := .bothSides .subtract "3" }] =
      .ok (.equation doubledTaken) := replay_doubled.2.1
  have hrefused : rules.step (some (.equation doubledTaken))
      (some { command := .bothSides .multiply " 0 " }) doubledPuzzle =
        .ok ⟨.equation doubledRefused, .running⟩ := by cbv
  have hreplay : replay rules doubledPuzzle blankActions = .ok (.equation doubledRefused) :=
    replay_of_step htaken hrefused
  have hmiddle : Text.HasMiddle [' ', '0', ' '] ['0'] :=
    ⟨⟨[' '], [' '], rfl, by simp; rfl⟩, by rintro _ ⟨⟩; rfl, by rintro _ ⟨⟩; rfl⟩
  have htrim : Text.trim " 0 " = "0" := Text.trim_eq_iff.2 hmiddle
  obtain ⟨_, _, ⟨⟩, ⟨⟩, hrecord, heffects⟩ := history_is_complete hreplay
  have hinitial : [{ command := .bothSides .subtract "3" }] ++
      [{ command := .bothSides .multiply " 0 " }] <+: blankActions := List.prefix_refl _
  obtain ⟨prior, hprior, hline⟩ := hrecord.lines _ _ hinitial rfl
  obtain ⟨before, applied, hbefore, hlatest, _⟩ := hrecord.latest _ _ _ _ hinitial rfl rfl
  obtain ⟨other, t, hother, hstep, _, heffect⟩ := heffects _ _ hinitial
  cases htaken.symm.trans hprior
  cases htaken.symm.trans hother
  cases hrefused.symm.trans hstep
  rw [htrim] at hlatest
  cases hlatest
  exact ⟨doubledRefused, hreplay, hrecord.length, hline, rfl, heffect⟩

end Solver

end PuzzlePlayback
