import PuzzlePlayback.Proofs.DrawnPath
import PuzzlePlayback.Proofs.Padding
import PuzzlePlayback.Proofs.UnionOfStrokes
import PuzzlePlayback.Proofs.WholeDoubles

/-!
# The author's own drawing passes

A drawing is graded by the ink of the author's drawing that it covers. The two are made in
different ways: the author's by replaying the solution when a player is created, the learner's
action by action as timers come due. They are the same drawing when the program is the solution,
because no action of a turtle fails or decides a run and a scan leaves the turtle where it is: both
are the fold of `act` over the actions (`draw`).

A drawing covers all of its own ink (`uncovered_self`), and the share that this comes to, computed
in doubles, is enough (`passing_self`). Nothing is asked of the strokes, so their coordinates may be
infinite or undefined, and the paper may have no pixels.

Main result: `own_drawing_passes`.
-/

namespace PuzzlePlayback

/-! ## A drawing covers itself -/

namespace Bitmap

theorem uncovered_self (bitmap : Bitmap) : uncovered bitmap bitmap = 0 := by
  rw [uncovered_eq_card, Finset.sdiff_self, Finset.card_empty]

/-- A drawing passes when it is compared with itself, also one without ink. -/
theorem passing_self (bitmap : Bitmap) : Drawing.passingCoverage ≤ coverage bitmap bitmap := by
  unfold coverage
  dsimp only
  split
  · decide +kernel
  · next hink =>
    rw [uncovered_self, Double.zero_div_ofNat (Nat.pos_of_ne_zero hink)]
    decide +kernel

end Bitmap

namespace Drawing

/-! ## Playing is drawing -/

variable {stage : Stage} {state : Option World} {turtle : Turtle}

/-- No action of a turtle fails or decides the run, and a scan is no exception. -/
theorem transition_eq_act (hrules : stage.rules = rules)
    (hstate : turtleOf state stage.puzzle = .ok turtle) (action : Action) :
    stage.transition state action = .ok (.running (.turtle (act turtle action))) := by
  unfold Stage.transition
  split
  · next hscan =>
    rw [act_scan hscan, hrules]
    match state, hstate with
    | none, hstate =>
      cases hstate
      rfl
    | some (.turtle _), hstate =>
      cases hstate
      rfl
  · rw [hrules]
    show step state (some action) stage.puzzle = _
    rw [step, hstate]
    rfl

/-- Actions played by the player draw what replaying them draws. -/
theorem run_eq_draw (hrules : stage.rules = rules) (turtle : Turtle) (index : Nat)
    (actions : List Action) :
    stage.run (some (.turtle turtle)) index actions =
      .ok ⟨some (.turtle (draw turtle actions)), index + actions.length, .verdict⟩ := by
  induction actions generalizing turtle index with
  | nil => rfl
  | cons action rest ih =>
    rw [Stage.run, transition_eq_act hrules rfl]
    show stage.run (some (.turtle (act turtle action))) (index + 1) rest = _
    rw [ih, List.length_cons, Nat.add_assoc, Nat.add_comm 1]
    rfl

/-- The same from the start, unless there is nothing to play. -/
theorem run_start_eq_draw (hrules : stage.rules = rules) {actions : List Action}
    (hactions : actions ≠ []) :
    stage.run none 0 actions =
      .ok ⟨some (.turtle (draw (start stage.puzzle) actions)), actions.length, .verdict⟩ := by
  obtain ⟨action, rest, rfl⟩ := List.exists_cons_of_ne_nil hactions
  rw [Stage.run, transition_eq_act hrules rfl]
  show stage.run (some (.turtle (act (start stage.puzzle) action))) 1 rest = _
  rw [run_eq_draw hrules, List.length_cons, Nat.add_comm 1]
  rfl

/-- The reference of a puzzle with a solution is what the solution draws. -/
theorem ofPuzzle_eq_draw {puzzle : Puzzle} (hsolution : puzzle.solution ≠ []) :
    Reference.ofPuzzle rules puzzle =
      .ok (some ⟨.turtle (draw (start puzzle) puzzle.solution), puzzle.solution.length⟩) := by
  have hsome : ¬puzzle.solution.isEmpty = true := fun h => hsolution (List.isEmpty_iff.1 h)
  rw [Reference.ofPuzzle, if_neg hsome, Reference.ofSolution, replay_eq_draw]
  rfl

/-- A drawing with the strokes of the reference passes. -/
theorem solved_of_strokes_eq {puzzle : Puzzle} {reference : Reference}
    (hstrokes : turtle.strokes = reference.strokes) :
    solved (.turtle turtle) puzzle (some reference) = .ok true := by
  have hpassing := (inkOf reference.strokes puzzle).passing_self
  simp only [solved, hstrokes, hpassing, decide_true]

/-- A program that draws the reference comes to a win. -/
theorem oneShot_of_reference {program : Program} {steps : Nat} (hrules : stage.rules = rules)
    (hactions : program.actions ≠ []) (hreference : stage.reference =
      some ⟨.turtle (draw (start stage.puzzle) program.actions), steps⟩) (wins : Nat) :
    stage.oneShot program wins =
      .ok ⟨some (.turtle (draw (start stage.puzzle) program.actions)), program.actions.length,
        stage.winOutcome program.blockCount wins⟩ := by
  have hsolved : stage.solved (some (.turtle (draw (start stage.puzzle) program.actions))) =
      .ok true := by
    rw [Stage.solved, hrules, hreference]
    exact solved_of_strokes_eq rfl
  rw [Stage.oneShot, run_start_eq_draw hrules hactions]
  simp only [Except.bind, Stage.resolve, hsolved]

end Drawing

namespace Player

/-- With rules for its mode and a solution that can be replayed, a puzzle can be played. -/
theorem exists_create {σ : Type} {registry : Registry} {puzzle : Puzzle} {rules : Rules}
    {reference : Option Reference} (source : ProgramSource) (timers : σ)
    (preferences : Preferences) (hours : Nat → Nat) (hfind : registry.find puzzle.mode = some rules)
    (href : Reference.ofPuzzle rules puzzle = .ok reference) :
    ∃ first, create registry puzzle source timers preferences hours = .ok first ∧
      first.stage = ⟨rules, puzzle, reference, hours⟩ := by
  unfold create
  simp only [hfind, href]
  exact ⟨_, rfl, rfl⟩

/-- **The author's own drawing passes.** Take a turtle puzzle with a solution and a program of the
same actions, however many blocks it is said to have. A new player of it can be created; played in
one go, at any speed and whatever other timers its clock holds, it reports no error and wins, in the
state that the solution leads to. -/
theorem own_drawing_passes {registry : Registry} {puzzle : Puzzle} {program : Program}
    (clock : ManualClock) (preferences : Preferences) (hours : Nat → Nat)
    (hmode : puzzle.mode = .turtle) (hrules : registry.find .turtle = some Drawing.rules)
    (hsolution : puzzle.solution ≠ []) (hactions : program.actions = puzzle.solution) :
    ∃ first state, create registry puzzle (.always program) clock preferences hours = .ok first ∧
      replay Drawing.rules puzzle puzzle.solution = .ok state ∧
      let straight := first.play.andThen playOut
      straight.error = none ∧ straight.player.status = .won ∧
        straight.player.outcome = some (first.stage.winOutcome program.blockCount 0) ∧
        straight.player.state = some state := by
  obtain ⟨first, hcreate, hstage⟩ := exists_create (.always program) clock preferences hours
    (hmode ▸ hrules) (Drawing.ofPuzzle_eq_draw hsolution)
  refine ⟨first, _, hcreate, Drawing.replay_eq_draw puzzle puzzle.solution, ?_⟩
  rw [← hactions] at hstage hsolution ⊢
  have hshot (wins : Nat) : first.stage.oneShot program wins = _ :=
    Drawing.oneShot_of_reference (by rw [hstage]) hsolution (by rw [hstage]) wins
  have hpuzzle : first.stage.puzzle = puzzle := by rw [hstage]
  rw [hpuzzle] at hshot
  obtain ⟨htrack, hcoherent, hrange⟩ := onTrack_create hcreate
  obtain ⟨hready, hidle, hnew⟩ := ready_create hcreate
  obtain ⟨hreplies, hends⟩ := straight_ends hready hidle
  intro straight
  have herror : straight.error = none := by
    cases hstraight : straight.error with
    | none => rfl
    | some error =>
      obtain ⟨fault, -, hfault⟩ := hreplies.fault htrack hcoherent hrange hstraight
      cases (hshot 0).symm.trans (hfault 0)
  obtain ⟨finish, hfinish, hstatus, hstate, -, houtcome, -⟩ :=
    hreplies.finish htrack hcoherent hrange (hends herror)
  rw [Nat.sub_eq_zero_of_le (straight_wins_le hnew)] at hfinish
  cases (hshot 0).symm.trans hfinish
  exact ⟨herror, hstatus, houtcome, hstate⟩

/-- A scan, a black line from the middle of a small paper to the right, and a red one down. -/
def scribble : Puzzle where
  mode := .turtle
  paperSize := some ⟨20, 10⟩
  solution := [{ command := .scan }, { command := .move (some 5.0) }, { command := .color "red" },
    { command := .turnRight }, { command := .move (some 3.0) }]

/-- A new player of the scribble draws both lines and wins, although the timer of somebody else is
in the way. -/
theorem own_drawing_passes_scribble :
    scribble.mode = .turtle ∧ Registry.standard.find .turtle = some Drawing.rules ∧
    scribble.solution ≠ [] ∧
    ∃ first turtle, create .standard scribble (.always ⟨scribble.solution, 9⟩)
        (ManualClock.atZero.set 30).2 .default (fun _ => 12) = .ok first ∧
      (first.play.andThen playOut).error = none ∧
      (first.play.andThen playOut).player.status = .won ∧
      (first.play.andThen playOut).player.state = some (.turtle turtle) ∧
      turtle.strokes.map Stroke.color = ["#000000", "red"] := by
  have hrules : Registry.standard.find .turtle = some Drawing.rules := rfl
  have hsolution : scribble.solution ≠ [] := nofun
  have hactions : (Program.mk scribble.solution 9).actions = scribble.solution := rfl
  obtain ⟨first, state, hcreate, hreplay, herror, hwon, _, hstate⟩ :=
    own_drawing_passes (ManualClock.atZero.set 30).2 .default (fun _ => 12) rfl hrules hsolution
      hactions
  cases hreplay.symm.trans (Drawing.replay_eq_draw scribble scribble.solution)
  exact ⟨rfl, hrules, hsolution, first, _, hcreate, herror, hwon, hstate, rfl⟩

end Player

end PuzzlePlayback
