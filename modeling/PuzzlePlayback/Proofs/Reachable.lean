import PuzzlePlayback.Proofs.Course
import PuzzlePlayback.World.Registry

/-!
# Reachable players

`Reachable first p`: a host that starts with `first` can bring about `p`. What holds at first and
survives every course holds of all reachable players (`Reachable.invariant`); for what only
speaks of the place, it is enough that it survives the moves of a place
(`Reachable.place_invariant`).
-/

namespace PuzzlePlayback

namespace Player

variable {σ : Type} [TimerSource σ]

/-! ## Reachable players -/

/-- The players that a host can bring about from `first`. Between operations it may take the
events and do anything to the timers. -/
inductive Reachable (first : Player σ) : Player σ → Prop
  | refl : Reachable first first
  | obey {p : Player σ} (control : Control) :
      Reachable first p → Reachable first (p.obey control).player
  | aside {p : Player σ} (timers : σ) (events : List Event) :
      Reachable first p → Reachable first { p with timers, events }

/-- What holds at first and survives every course holds of all reachable players. -/
theorem Reachable.invariant {first p : Player σ} {I : Player σ → Prop} (h : Reachable first p)
    (hfirst : I first)
    (hcourse : ∀ {p : Player σ} {control : Control} {reply : Reply σ},
      I p → Course p control reply → I reply.player)
    (haside : ∀ {p : Player σ} (timers : σ) (events : List Event),
      I p → I { p with timers, events }) : I p := by
  induction h with
  | refl => exact hfirst
  | obey control _ ih => exact hcourse ih (course _ control)
  | aside timers events _ ih => exact haside timers events ih

omit [TimerSource σ] in
/-- A new player has nothing to play yet. -/
theorem create_eq_ok {registry : Registry} {puzzle : Puzzle} {source : ProgramSource}
    {timers : σ} {preferences : Preferences} {hours : Nat → Nat} {first : Player σ}
    (h : create registry puzzle source timers preferences hours = .ok first) :
    ∃ rules reference, registry.find puzzle.mode = some rules ∧
      Reference.ofPuzzle rules puzzle = .ok reference ∧
      first = ⟨⟨rules, puzzle, reference, hours⟩, source, timers, preferences, none, none, 0, none,
        .idle, none, 0, none, []⟩ := by
  unfold create at h
  cases hfind : registry.find puzzle.mode with
  | none => simp [hfind] at h
  | some rules =>
    cases href : Reference.ofPuzzle rules puzzle with
    | error fault => simp [hfind, href] at h
    | ok reference =>
      simp only [hfind, href, Except.ok.injEq] at h
      exact ⟨rules, reference, rfl, href, h.symm⟩

omit [TimerSource σ] in
/-- New players of a puzzle are on the same stage. -/
theorem stage_eq_of_create {τ : Type} {registry : Registry} {puzzle : Puzzle}
    {source source' : ProgramSource} {timers : σ} {timers' : τ} {preferences others : Preferences}
    {hours : Nat → Nat} {first : Player σ} {second : Player τ}
    (hfirst : create registry puzzle source timers preferences hours = .ok first)
    (hsecond : create registry puzzle source' timers' others hours = .ok second) :
    second.stage = first.stage := by
  obtain ⟨_, _, hfind, href, rfl⟩ := create_eq_ok hfirst
  obtain ⟨_, _, hfind', href', rfl⟩ := create_eq_ok hsecond
  cases hfind.symm.trans hfind'
  cases href.symm.trans href'
  rfl

/-! ## Journeys -/

/-- What can happen to a place at once. -/
inductive Place.Move (a : Place) : Place → Prop
  | stays : Place.Move a a
  | rewinds : Place.Move a (.outset a.stage a.program)
  | changes (program : Option Program) : Place.Move a (.outset a.stage program)
  | plays {program : Program} {action : Action} {t : Transition} :
      a.program = some program → program.actions[a.step]? = some action →
      a.stage.transition a.state action = .ok t →
      Place.Move a ⟨a.stage, a.program, some t.state, a.step + 1, some a.step⟩
  | travels {program : Program} {n : Nat} {state : World} :
      a.program = some program → n ≤ program.size →
      replay a.stage.rules a.stage.puzzle (program.actions.take n) = .ok state →
      Place.Move a ⟨a.stage, a.program, some state, n, if n = 0 then none else some (n - 1)⟩

theorem Played.move {q : Player σ} {auto : Bool} {reply : Reply σ} (h : Played q auto reply) :
    Place.Move q.place reply.player.place := by
  have commits {action : Action} {t : Transition} (haction : q.action? q.step = some action)
      (ht : q.stage.transition q.state action = .ok t) :
      Place.Move q.place (q.commit t.state).place := by
    obtain ⟨program, hprogram, hget⟩ := Option.bind_eq_some_iff.1 haction
    exact .plays hprogram hget ht
  cases h with
  | ended _ => simpa using .stays
  | faulted _ _ => simpa using .stays
  | won haction ht _ => simpa using commits haction ht
  | lost haction ht _ => simpa using commits haction ht
  | last haction ht _ _ => simpa using commits haction ht
  | onward haction ht _ _ _ => simpa using commits haction ht
  | held haction ht _ _ _ => exact commits haction ht

theorem Turn.move {p q : Player σ} {control : Control} {auto : Bool}
    (h : Turn p control q auto) : Place.Move p.place q.place := by
  rcases h.place with h | ⟨program, h⟩
  · rw [h]; exact .stays
  · rw [h]; exact .changes program

/-- An operation moves a player at most twice: to the start of a program, and on from there. -/
theorem Course.moves {p : Player σ} {control : Control} {reply : Reply σ}
    (h : Course p control reply) :
    ∃ between, Place.Move p.place between ∧ Place.Move between reply.player.place := by
  cases h with
  | @turned _ q auto turn => exact ⟨q.place, turn.move, (q.played auto).move⟩
  | refused _ _ => exact ⟨_, .stays, by simpa using .rewinds⟩
  | resumed _ => exact ⟨_, .stays, by simpa using .stays⟩
  | paused _ => exact ⟨_, .stays, by simpa using .stays⟩
  | pauseIgnored _ => exact ⟨_, .stays, .stays⟩
  | stepIgnored _ => exact ⟨_, .stays, .stays⟩
  | rewound => exact ⟨_, .stays, by simpa using .rewinds⟩
  | cleared => exact ⟨_, .stays, by simpa using .changes none⟩
  | exchanged => exact ⟨_, .stays, by simpa using .changes none⟩
  | lost _ => exact ⟨_, .stays, .stays⟩
  | traveled hprogram hreplay =>
    refine ⟨_, .stays, ?_⟩
    rw [Reply.done_player, place_arrived]
    exact .travels hprogram (Nat.min_le_right _ _) hreplay
  | strayed _ _ => exact ⟨_, .stays, by simpa using .stays⟩
  | slid => exact ⟨_, .stays, .stays⟩
  | announced _ => exact ⟨_, .stays, by simpa using .stays⟩
  | dropped _ _ => exact ⟨_, .stays, .stays⟩
  | stale _ => exact ⟨_, .stays, .stays⟩

/-- What survives every move of a place holds of the places of all reachable players. -/
theorem Reachable.place_invariant {first p : Player σ} {I : Place → Prop}
    (h : Reachable first p) (hfirst : I first.place)
    (hmove : ∀ {a b : Place}, I a → Place.Move a b → I b) : I p.place := by
  refine h.invariant (I := fun p => I p.place) hfirst ?_ fun _ _ hp => hp
  intro p control reply hp hcourse
  obtain ⟨between, hfirst, hthen⟩ := hcourse.moves
  exact hmove (hmove hp hfirst) hthen

theorem Place.Move.stage_eq {a b : Place} (h : Place.Move a b) : b.stage = a.stage := by
  cases h <;> rfl

/-- The stage stays the same. -/
theorem Reachable.stage_eq {first p : Player σ} (h : Reachable first p) :
    p.stage = first.stage :=
  h.place_invariant (I := fun a => a.stage = first.stage) rfl
    fun ha hmove => hmove.stage_eq.trans ha

end Player

/-! ## A small run -/

/-- A puzzle without inputs and targets. -/
def blankPuzzle : Puzzle := { id := "blank", mode := .math }

/-- A program that prints two lines. -/
def twoLines : Program := .ofActions [⟨none, .print "a"⟩, ⟨none, .print "b"⟩]

/-- A new player of the blank puzzle at noon. -/
def novice {σ : Type} (timers : σ) : Player σ :=
  ⟨⟨Sandbox.rules, blankPuzzle, none, fun _ => 12⟩, .always twoLines, timers, .default, none, none,
    0, none, .idle, none, 0, none, []⟩

theorem create_novice {σ : Type} (timers : σ) :
    Player.create .standard blankPuzzle (.always twoLines) timers .default (fun _ => 12) =
      .ok (novice timers) := rfl

end PuzzlePlayback
