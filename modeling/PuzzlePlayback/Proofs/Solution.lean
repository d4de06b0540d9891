import PuzzlePlayback.Proofs.ExactArithmetic
import PuzzlePlayback.Proofs.ParallelRun

/-!
# The solution solves the authored equation

A solved equation is checked by putting the solution into the authored sides. As long as an
equation is scaled by numbers only, this check agrees wherever both sides have a value.

The invariant (`Sides.Multiple`) is that the difference of the present sides is a nonzero multiple
of the difference of the authored ones: adding and subtracting leave it as it is, whatever the
operand, and scaling by a number multiplies it. It lives on the Laurent polynomials that the
polynomials of the calculator denote; `Tracks` carries it through the text. At the solution the
present difference vanishes, because one side is the unknown and the other is the solution, so the
authored one vanishes too.

Main result: `solution_solves_authored`.
-/

namespace PuzzlePlayback.Solver

open Calculator LaurentPolynomial

/-! ## The difference of the sides -/

/-- How far the left side is from the right one. -/
noncomputable def Sides.difference (sides : Sides) : ℚ[T;T⁻¹] :=
  sides.lhs.toPoly - sides.rhs.toPoly

/-- Both are equations, and they differ by a nonzero factor and by what is the same on both
sides. -/
structure Sides.Multiple (sides first : Sides) : Prop where
  sign : sides.sign = first.sign
  difference : ∃ c : ℚ, c ≠ 0 ∧ sides.difference = c • first.difference

theorem Sides.Multiple.refl (sides : Sides) : sides.Multiple sides :=
  ⟨rfl, 1, one_ne_zero, (one_smul ℚ _).symm⟩

theorem Sides.Multiple.trans {sides next first : Sides} (h : next.Multiple sides)
    (hsides : sides.Multiple first) : next.Multiple first := by
  obtain ⟨c, hc, hdifference⟩ := h.difference
  obtain ⟨d, hd, hfirst⟩ := hsides.difference
  exact ⟨h.sign.trans hsides.sign, c * d, mul_ne_zero hc hd,
    by rw [hdifference, hfirst, mul_smul]⟩

/-- An operation that scales by a factor and adds a summand on either side scales the difference
by the factor. -/
theorem multiple_onBoth {sides next : Sides} {operand : Laurent}
    {operation : Laurent → Laurent → Except Failure Laurent} (c : ℚ) (d : ℚ[T;T⁻¹])
    (hoperation : ∀ p r, operation p operand = .ok r → c ≠ 0 ∧ r.toPoly = c • p.toPoly + d)
    (h : onBoth operation sides operand = .ok next) : next.Multiple sides := by
  unfold onBoth at h
  split at h
  · cases h
  · next l hl =>
    split at h
    · cases h
    · next r hr =>
      cases h
      obtain ⟨hc, hlhs⟩ := hoperation _ _ hl
      obtain ⟨_, hrhs⟩ := hoperation _ _ hr
      refine ⟨rfl, c, hc, ?_⟩
      calc l.toPoly - r.toPoly
          = (c • sides.lhs.toPoly + d) - (c • sides.rhs.toPoly + d) := by rw [hlhs, hrhs]
        _ = c • sides.difference := by rw [Sides.difference, smul_sub, add_sub_add_right_eq_sub]

theorem toPoly_mul_constant {p q r : Laurent} {c : Fraction} (hq : q.constant? = some c)
    (h : p.mul q = .ok r) : r.toPoly = c.toRat • p.toPoly := by
  rw [Laurent.toPoly_mul h, Laurent.toPoly_of_constant hq, mul_comm, smul_eq_C_mul]

/-- Division by a number multiplies by its inverse; the number is not zero. -/
theorem toPoly_div_constant {p q r : Laurent} {c : Fraction} (hq : q.constant? = some c)
    (h : p.div q = .ok r) : c.toRat ≠ 0 ∧ r.toPoly = c.toRat⁻¹ • p.toPoly := by
  obtain ⟨hne, hr⟩ := Laurent.toPoly_div h
  rw [Laurent.toPoly_of_constant hq] at hne hr
  have hc : c.toRat ≠ 0 := fun hzero => hne (by rw [hzero, map_zero])
  refine ⟨hc, ?_⟩
  rw [← hr, mul_comm, ← smul_eq_C_mul, inv_smul_smul₀ hc]

/-- Operations on an equation that scale by numbers only keep it a multiple of what it was. -/
theorem multiple_apply {sides next : Sides} {operator : Operator} {operand : Laurent}
    (hsign : sides.sign = .eq)
    (hscale : operator = .multiply ∨ operator = .divide → ∃ c, operand.constant? = some c)
    (h : sides.apply operator operand = .ok next) : next.Multiple sides := by
  have hscaled : scaledSign sides.sign operand = .ok sides.sign := by rw [scaledSign, if_pos hsign]
  unfold Sides.apply at h
  cases operator with
  | add =>
    refine multiple_onBoth 1 operand.toPoly (fun p r hr => ⟨one_ne_zero, ?_⟩) h
    rw [Laurent.toPoly_add hr, one_smul]
  | subtract =>
    refine multiple_onBoth 1 (-operand.toPoly) (fun p r hr => ⟨one_ne_zero, ?_⟩) h
    rw [Laurent.toPoly_sub hr, one_smul, sub_eq_add_neg]
  | multiply =>
    obtain ⟨c, hc⟩ := hscale (.inl rfl)
    simp only [hscaled] at h
    split at h
    · cases h
    · next hfactor =>
      have hne : c.toRat ≠ 0 := fun hzero => hfactor <| by
        rw [hc, Fraction.eq_zero_of_num_eq_zero (Fraction.toRat_eq_zero_iff.1 hzero)]
      refine multiple_onBoth c.toRat 0 (fun p r hr => ⟨hne, ?_⟩) h
      rw [toPoly_mul_constant hc hr, add_zero]
  | divide =>
    obtain ⟨c, hc⟩ := hscale (.inr rfl)
    simp only [hscaled] at h
    refine multiple_onBoth c.toRat⁻¹ 0 (fun p r hr => ?_) h
    obtain ⟨hne, hr⟩ := toPoly_div_constant hc hr
    exact ⟨inv_ne_zero hne, by rw [hr, add_zero]⟩

/-- An operation whose operand, where it scales, is read as a number. -/
def NumberWhereScaling (operator : Operator) (operand x : String) : Prop :=
  operator = .multiply ∨ operator = .divide →
    ∃ p c, Laurent.ofText operand x = .ok p ∧ p.constant? = some c

theorem multiple_attempt {sides next : Sides} {operator : Operator} {operand x : String}
    (hsign : sides.sign = .eq) (hscale : NumberWhereScaling operator operand x)
    (h : attempt sides operator operand x = .ok next) : next.Multiple sides := by
  unfold attempt at h
  split at h
  · next p hp =>
    refine multiple_apply hsign (fun hoperator => ?_) h
    obtain ⟨q, c, hq, hc⟩ := hscale hoperator
    obtain rfl := Except.ok.inj (hp.symm.trans hq)
    exact ⟨c, hc⟩
  · cases h

/-! ## The solution -/

/-- At the solution the sides do not differ. -/
theorem valueAt_difference {sides : Sides} {value : Fraction}
    (h : solution? sides.lhs sides.rhs = some value) :
    Laurent.valueAt value.toRat sides.difference = 0 := by
  have hvar : Laurent.valueAt value.toRat (T 1) = value.toRat := by
    rw [T, Laurent.valueAt_single, one_mul, zpow_one]
  have hconstant : Laurent.valueAt value.toRat (C value.toRat) = value.toRat := by
    rw [← single_eq_C, Laurent.valueAt_single, zpow_zero, mul_one]
  unfold solution? at h
  split at h
  · next hlhs =>
    rw [Sides.difference, Laurent.toPoly_of_isVar hlhs, Laurent.toPoly_of_constant h, map_sub,
      hvar, hconstant, sub_self]
  · split at h
    · next hrhs =>
      rw [Sides.difference, Laurent.toPoly_of_isVar hrhs, Laurent.toPoly_of_constant h, map_sub,
        hvar, hconstant, sub_self]
    · cases h

/-- Sides that do not differ at a number have the same value there, if any. -/
theorem eval_eq_of_difference {sides : Sides} {value l r : Fraction}
    (h : Laurent.valueAt value.toRat sides.difference = 0)
    (hl : sides.lhs.eval value = .ok l) (hr : sides.rhs.eval value = .ok r) :
    l.toRat = r.toRat := by
  rw [Sides.difference, map_sub, sub_eq_zero] at h
  rw [Laurent.toRat_eval hl, Laurent.toRat_eval hr, h]

/-- The solution of a multiple solves the equation it is a multiple of. -/
theorem Sides.Multiple.valueAt_difference {sides first : Sides} {value : Fraction}
    (h : sides.Multiple first) (hsolution : solution? sides.lhs sides.rhs = some value) :
    Laurent.valueAt value.toRat first.difference = 0 := by
  obtain ⟨c, hc, hdifference⟩ := h.difference
  have hzero := Solver.valueAt_difference hsolution
  rw [hdifference, map_smul, smul_eq_mul] at hzero
  exact (mul_eq_zero.1 hzero).resolve_left hc

/-- The check of a number at which the authored sides do not differ: it agrees wherever both of
them have a value, which is then the same. -/
theorem check_agrees {authored : AuthoredEquation} {value : Fraction} {sides : Sides}
    {result : Check} (hlhs : Laurent.ofText authored.lhs authored.unknown = .ok sides.lhs)
    (hrhs : Laurent.ofText authored.rhs authored.unknown = .ok sides.rhs)
    (hzero : Laurent.valueAt value.toRat sides.difference = 0)
    (h : check authored value = .ok result) :
    result.value = value.render ∧
      (result.agree = true ↔
        (∃ l, sides.lhs.eval value = .ok l) ∧ ∃ r, sides.rhs.eval value = .ok r) ∧
      (result.agree = true → ∃ common, sides.lhs.eval value = .ok common ∧
        sides.rhs.eval value = .ok common) := by
  simp only [check, readSide, hlhs, hrhs, Bind.bind, Except.bind] at h
  cases h
  refine ⟨rfl, ?_⟩
  cases hl : sides.lhs.eval value with
  | error failure => simp
  | ok l =>
    cases hr : sides.rhs.eval value with
    | error failure => simp
    | ok r =>
      obtain rfl : l = r := Fraction.toRat_injective (eval_eq_of_difference hzero hl hr)
      have horder : compare l l = .eq := Fraction.compare_eq_iff.2 rfl
      simp [horder, Relation.allows]

/-! ## The run -/

variable {puzzle : Puzzle} {authored : AuthoredEquation} {equation : Equation}

/-- The latest operation on both sides, if it was carried out and scaled them, did so by a
number. -/
def ScaledByNumber (authored : AuthoredEquation) (equation : Equation) : Prop :=
  ∀ operator operand, equation.latest = some ⟨operator, operand, true⟩ →
    NumberWhereScaling operator operand authored.unknown

/-- Every operation that is carried out while the actions are played scales by a number, if it
scales. Adding and subtracting is free. -/
def ScalesByNumbers (puzzle : Puzzle) (authored : AuthoredEquation) (actions : List Action) :
    Prop :=
  ∀ played, played <+: actions → ∀ equation,
    replay rules puzzle played = .ok (.equation equation) → ScaledByNumber authored equation

/-- The next equation shows a multiple of the sides, and if the action won, then with the check of
their solution. -/
structure Solving (authored : AuthoredEquation) (sides : Sides) (next : Equation)
    (signal : Signal) (reached : Sides) : Prop where
  tracks : Tracks authored next reached
  multiple : reached.Multiple sides
  solved : signal = .win → ∃ value result, solution? reached.lhs reached.rhs = some value ∧
    check authored value = .ok result ∧ next.check = some result

theorem Operated.solving {sides : Sides} {operator : Operator} {operand : String}
    {next : Equation × Signal} (h : Tracks authored equation sides) (hsign : sides.sign = .eq)
    (hscaled : ScaledByNumber authored next.1)
    (hnext : Operated authored equation operator operand sides next) :
    ∃ reached, Solving authored sides next.1 next.2 reached := by
  cases hnext with
  | refused _ => exact ⟨sides, tracks_record h operator operand false, .refl sides, nofun⟩
  | unsolved hattempt _ =>
    exact ⟨_, tracks_rewritten h hattempt _,
      multiple_attempt hsign (hscaled operator operand rfl) hattempt, nofun⟩
  | @solved reached value result hattempt hsolution _ hresult =>
    exact ⟨reached, tracks_rewritten h hattempt _,
      multiple_attempt hsign (hscaled operator operand rfl) hattempt,
      fun _ => ⟨value, result, hsolution, hresult, rfl⟩⟩
  | bounded hattempt _ hne =>
    -- An equation stays one.
    have hmultiple := multiple_attempt hsign (hscaled operator operand rfl) hattempt
    exact absurd (hmultiple.sign.trans hsign) hne

/-- **One action.** It keeps the equation a multiple of what it was. -/
theorem Tracks.solving {sides : Sides} {action : Action} {t : Transition}
    (h : Tracks authored equation sides) (hauthored : puzzle.equation = some authored)
    (hsign : sides.sign = .eq)
    (hscaled : ∀ next, t.state = .equation next → ScaledByNumber authored next)
    (hstep : Solver.step (some (.equation equation)) (some action) puzzle = .ok t) :
    ∃ next reached, t.state = .equation next ∧ Solving authored sides next t.signal reached := by
  by_cases hboth : ∃ operator value, action.command = .bothSides operator value
  · obtain ⟨operator, value, haction⟩ := hboth
    rw [step_bothSides haction] at hstep
    obtain ⟨next, hnext, rfl⟩ := map_eq_ok hstep
    obtain ⟨reached, hreached⟩ :=
      (h.operated hauthored hnext).solving h hsign (hscaled next.1 rfl)
    exact ⟨next.1, reached, rfl, hreached⟩
  · rw [step_of_not_bothSides fun operator value haction => hboth ⟨_, _, haction⟩] at hstep
    cases hstep
    exact ⟨equation, sides, rfl, h, .refl sides, nofun⟩

theorem ScalesByNumbers.of_append {actions more : List Action}
    (h : ScalesByNumbers puzzle authored (actions ++ more)) :
    ScalesByNumbers puzzle authored actions :=
  fun played hplayed => h played (hplayed.trans (List.prefix_append actions more))

/-- The invariant of a run. By induction on the actions from the last one back. -/
theorem multiple_replay {first : Sides} (hauthored : puzzle.equation = some authored)
    (hsign : first.sign = .eq) (hstart : start puzzle = .ok equation)
    (hfirst : Tracks authored equation first) {actions : List Action} {world : World}
    (hscales : ScalesByNumbers puzzle authored actions)
    (h : replay rules puzzle actions = .ok world) :
    ∃ present sides, world = .equation present ∧ Tracks authored present sides ∧
      sides.Multiple first := by
  induction actions using List.reverseRecOn generalizing world with
  | nil =>
    cases (replay_nil hstart).symm.trans h
    exact ⟨equation, first, rfl, hfirst, .refl first⟩
  | append_singleton actions action ih =>
    obtain ⟨before, hbefore⟩ := exists_replay_of_snoc h
    obtain ⟨present, sides, rfl, htracks, hmultiple⟩ := ih hscales.of_append hbefore
    obtain ⟨t, hstep, rfl⟩ := step_of_replay hbefore h
    obtain ⟨next, reached, hstate, hsolving⟩ := htracks.solving hauthored
      (hmultiple.sign.trans hsign)
      (fun next hnext => hscales _ (List.prefix_refl _) next (hnext ▸ h)) hstep
    exact ⟨next, reached, hstate, hsolving.tracks, hsolving.multiple.trans hmultiple⟩

/-- What the transition is given after some actions: nothing before the first of them, and then
the state that they lead to. -/
inductive Prior (puzzle : Puzzle) : List Action → Option World → Prop
  | fresh : Prior puzzle [] none
  | reached {actions : List Action} {world : World} :
      replay rules puzzle actions = .ok world → Prior puzzle actions (some world)

/-- Starting from nothing is starting from the start. -/
theorem Prior.step_eq {actions : List Action} {prior : Option World} {action : Action}
    {t : Transition} (h : Prior puzzle actions prior)
    (hstep : rules.step prior (some action) puzzle = .ok t) :
    ∃ world, replay rules puzzle actions = .ok world ∧
      rules.step (some world) (some action) puzzle = .ok t := by
  cases h with
  | reached hreplay => exact ⟨_, hreplay, hstep⟩
  | fresh =>
    rw [startsFresh] at hstep
    obtain ⟨world, hworld, hstep⟩ := bind_eq_ok hstep
    refine ⟨world, ?_, hstep⟩
    rw [replay, hworld]
    rfl

/-- A puzzle that can be replayed has authored sides that can be read. -/
theorem authoredSides_of_replay {actions : List Action} {world : World}
    (hauthored : puzzle.equation = some authored) (h : replay rules puzzle actions = .ok world) :
    ∃ lhs rhs, Laurent.ofText authored.lhs authored.unknown = .ok lhs ∧
      Laurent.ofText authored.rhs authored.unknown = .ok rhs := by
  obtain ⟨equation, hstart⟩ := exists_start_of_replay h
  obtain ⟨found, _, _, hfound, ⟨lhs, rhs, hlhs, hrhs⟩, _⟩ := start_written hstart
  obtain rfl := Option.some.inj (hauthored.symm.trans hfound)
  exact ⟨lhs, rhs, ofText_of_readSide hlhs, ofText_of_readSide hrhs⟩

/-- Sides that show a solution can be read again. -/
theorem legible_of_solution {lhs rhs : Laurent} {value : Fraction}
    (h : solution? lhs rhs = some value) : Legible lhs ∧ Legible rhs := by
  have hvar {p : Laurent} (hp : p.isVar = true) : Legible p := by
    obtain rfl : p = .var := by simpa [Laurent.isVar] using hp
    decide
  have hconstant {p : Laurent} (hp : p.constant? = some value) : Legible p := by
    unfold Laurent.constant? at hp
    split at hp
    · next hentries => exact fun t ht => by simp [hentries] at ht
    · next degree coef hentries =>
      split at hp
      · next hdegree =>
        intro t ht
        obtain rfl : t = (degree, coef) := by simpa [hentries] using ht
        show -16 ≤ degree ∧ degree ≤ 16
        omega
      · cases hp
    · cases hp
  unfold solution? at h
  split at h
  · next hlhs => exact ⟨hvar hlhs, hconstant h⟩
  · split at h
    · next hrhs => exact ⟨hconstant h, hvar hrhs⟩
    · cases h

/-- **The solution solves the authored equation.** Play some actions on an equation, of which those
that multiply or divide both sides do so by numbers. If the last of them wins, then its state shows
the solution with a check, and the check agrees exactly if both authored sides have a value
there. Where it agrees, they have the same value. -/
theorem solution_solves_authored {before : List Action} {last : Action} {prior : Option World}
    {t : Transition} (hauthored : puzzle.equation = some authored)
    (hsign : Relation.ofText? authored.sign = some .eq) (hprior : Prior puzzle before prior)
    (hstep : rules.step prior (some last) puzzle = .ok t)
    (hscales : ScalesByNumbers puzzle authored (before ++ [last])) (hwin : t.signal = .win) :
    ∃ equation lhs rhs value result, t.state = .equation equation ∧
      Laurent.ofText equation.lhs authored.unknown = .ok lhs ∧
      Laurent.ofText equation.rhs authored.unknown = .ok rhs ∧
      solution? lhs rhs = some value ∧
      equation.check = some result ∧ result.value = value.render ∧
      ∃ l r, Laurent.ofText authored.lhs authored.unknown = .ok l ∧
        Laurent.ofText authored.rhs authored.unknown = .ok r ∧
        (result.agree = true ↔ (∃ a, l.eval value = .ok a) ∧ ∃ b, r.eval value = .ok b) ∧
        (result.agree = true → ∃ a, l.eval value = .ok a ∧ r.eval value = .ok a) := by
  obtain ⟨world, hreplay, hstep⟩ := hprior.step_eq hstep
  obtain ⟨l, r, hl, hr⟩ := authoredSides_of_replay hauthored hreplay
  obtain ⟨_, first, hstart, hfirst⟩ := tracks_start hauthored hl hr hsign
  obtain ⟨present, sides, rfl, htracks, hmultiple⟩ :=
    multiple_replay hauthored rfl hstart hfirst hscales.of_append hreplay
  have hlast : replay rules puzzle (before ++ [last]) = .ok t.state :=
    replay_of_step hreplay hstep
  obtain ⟨equation, reached, hstate, hsolving⟩ := htracks.solving hauthored hmultiple.sign
    (fun next hnext => hscales _ (List.prefix_refl _) next (hnext ▸ hlast)) hstep
  obtain ⟨value, result, hsolution, hcheck, hshown⟩ := hsolving.solved hwin
  obtain ⟨hlhs, hrhs⟩ :=
    readSides_of_legible hsolving.tracks.written (legible_of_solution hsolution)
  have hzero := (hsolving.multiple.trans hmultiple).valueAt_difference hsolution
  obtain ⟨hvalue, hagree⟩ := check_agrees hl hr hzero hcheck
  exact ⟨equation, reached.lhs, reached.rhs, value, result, hstate, ofText_of_readSide hlhs,
    ofText_of_readSide hrhs, hsolution, hshown, hvalue, l, r, hl, hr, hagree⟩

/-! ## A small equation -/

/-- The start of `2x + 3 = 7`. -/
def doubledStart : Equation where
  lhs := "2x + 3"
  rhs := "7"
  sign := .eq
  implicit := true
  history := []
  latest := none
  check := none

/-- After taking three away. -/
def doubledTaken : Equation :=
  { doubledStart with
    lhs := "2x"
    rhs := "4"
    history := [⟨"2x + 3", .eq, "7"⟩]
    latest := some ⟨.subtract, "3", true⟩ }

/-- After the attempt to multiply by zero. -/
def doubledRefused : Equation := record doubledTaken .multiply "0" false

/-- After halving. -/
def doubledEnd : Equation :=
  { record doubledRefused .divide "2" true with
    lhs := "x"
    rhs := "2"
    check := some ⟨"2", "7", "7", true⟩ }

theorem start_doubled : start doubledPuzzle = .ok doubledStart := by cbv

theorem step_doubledStart :
    rules.step (some (.equation doubledStart)) (some { command := .bothSides .subtract "3" })
      doubledPuzzle = .ok ⟨.equation doubledTaken, .running⟩ := by cbv

theorem step_doubledTaken :
    rules.step (some (.equation doubledTaken)) (some { command := .bothSides .multiply "0" })
      doubledPuzzle = .ok ⟨.equation doubledRefused, .running⟩ := by cbv

theorem step_doubledRefused :
    rules.step (some (.equation doubledRefused)) (some { command := .bothSides .divide "2" })
      doubledPuzzle = .ok ⟨.equation doubledEnd, .win⟩ := by cbv

theorem replay_doubled :
    replay rules doubledPuzzle (doubledActions.take 0) = .ok (.equation doubledStart) ∧
    replay rules doubledPuzzle (doubledActions.take 1) = .ok (.equation doubledTaken) ∧
    replay rules doubledPuzzle (doubledActions.take 2) = .ok (.equation doubledRefused) ∧
    replay rules doubledPuzzle (doubledActions.take 3) = .ok (.equation doubledEnd) := by
  have hstart := replay_nil start_doubled
  have htaken := replay_of_step hstart step_doubledStart
  have hrefused := replay_of_step htaken step_doubledTaken
  exact ⟨hstart, htaken, hrefused, replay_of_step hrefused step_doubledRefused⟩

/-- The only scaling that is carried out is the one by two. -/
theorem scales_doubled : ScalesByNumbers doubledPuzzle doubled doubledActions := by
  obtain ⟨hstart, htaken, hrefused, hend⟩ := replay_doubled
  intro played hplayed equation hreplay operator operand hlatest hoperator
  have hlength : played.length ≤ 3 := hplayed.length_le
  rw [List.prefix_iff_eq_take.1 hplayed] at hreplay
  have hcases : played.length = 0 ∨ played.length = 1 ∨ played.length = 2 ∨ played.length = 3 := by
    omega
  rcases hcases with hn | hn | hn | hn <;> rw [hn] at hreplay
  · cases hstart.symm.trans hreplay
    cases hlatest
  · cases htaken.symm.trans hreplay
    cases hlatest
    rcases hoperator with h | h <;> cases h
  · cases hrefused.symm.trans hreplay
    cases hlatest
  · cases hend.symm.trans hreplay
    cases hlatest
    exact ⟨.constant (.ofInt 2), .ofInt 2, by cbv, by decide⟩

/-- Halving solves the equation. The check of two agrees, because both sides of `2x + 3 = 7` have a
value there, the same. -/
theorem solution_solves_authored_doubled :
    Relation.ofText? doubled.sign = some .eq ∧
    Prior doubledPuzzle (doubledActions.take 2) (some (.equation doubledRefused)) ∧
    ScalesByNumbers doubledPuzzle doubled doubledActions ∧
    ∃ result, doubledEnd.check = some result ∧ result.value = (Fraction.ofInt 2).render ∧
      result.agree = true ∧ ∃ common, doubledSides.lhs.eval (.ofInt 2) = .ok common ∧
        doubledSides.rhs.eval (.ofInt 2) = .ok common := by
  have hsign : Relation.ofText? doubled.sign = some .eq := by cbv
  have hprior : Prior doubledPuzzle (doubledActions.take 2) (some (.equation doubledRefused)) :=
    .reached replay_doubled.2.2.1
  obtain ⟨_, lhs, rhs, value, result, ⟨⟩, hlhs, hrhs, hsolution, hcheck, hvalue, l, r, hl, hr,
    hagree, hcommon⟩ :=
      solution_solves_authored rfl hsign hprior step_doubledRefused scales_doubled rfl
  have hread : Laurent.ofText "x" "x" = .ok doubledSolved.lhs ∧
      Laurent.ofText "2" "x" = .ok doubledSolved.rhs := ⟨by cbv, by cbv⟩
  cases hread.1.symm.trans hlhs
  cases hread.2.symm.trans hrhs
  have hauthored : Laurent.ofText "2x + 3" "x" = .ok doubledSides.lhs ∧
      Laurent.ofText "7" "x" = .ok doubledSides.rhs := ⟨by cbv, by cbv⟩
  cases hauthored.1.symm.trans hl
  cases hauthored.2.symm.trans hr
  obtain rfl : Fraction.ofInt 2 = value := by
    have htwo : solution? doubledSolved.lhs doubledSolved.rhs = some (.ofInt 2) := by cbv
    exact Option.some.inj (htwo.symm.trans hsolution)
  have hagrees : result.agree = true := hagree.2 ⟨⟨.ofInt 7, by cbv⟩, .ofInt 7, by cbv⟩
  exact ⟨hsign, hprior, scales_doubled, result, hcheck, hvalue, hagrees, hcommon hagrees⟩

end PuzzlePlayback.Solver
