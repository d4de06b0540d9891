import PuzzlePlayback.Proofs.Coherence
import PuzzlePlayback.Proofs.StateReplay

/-!
# Outcomes are justified

What a run comes to is decided when the timer of the announcement is set, and announced when that
timer is due; in between the host may pause, resume, step, move the slider and deliver stale
timers. `Justified` says that the reason still stands all that time: while an announcement waits,
the place does not move, and whatever moves the place gives the announcement up.

* `Decides` — the last action played won or lost, in the replay of the actions before it.
* `Judges` — what the rules say of the replay of the whole program.

Main result: `outcome_justified`.
-/

namespace PuzzlePlayback

/-- The last of the first `step` actions, no scan, played in the replay of those before it, gave
the signal. -/
def Decides (rules : Rules) (puzzle : Puzzle) (actions : List Action) (step : Nat)
    (signal : Signal) : Prop :=
  ∃ action before t, 0 < step ∧ actions[step - 1]? = some action ∧ action.isScan = false ∧
    replay rules puzzle (actions.take (step - 1)) = .ok before ∧
    rules.step (some before) (some action) puzzle = .ok t ∧ t.signal = signal

/-- The rules judge the replay of all actions so. -/
def Judges (rules : Rules) (puzzle : Puzzle) (reference : Option Reference)
    (actions : List Action) (solved : Bool) : Prop :=
  ∃ final, replay rules puzzle actions = .ok final ∧
    rules.solved final puzzle reference = .ok solved

/-- A scan never ends a run. -/
theorem Stage.transition_scan {stage : Stage} {state : Option World} {action : Action}
    {t : Transition} (hscan : action.isScan = true)
    (ht : stage.transition state action = .ok t) : t.signal = .running := by
  unfold transition at ht
  rw [if_pos hscan] at ht
  cases state with
  | some state =>
    cases ht
    rfl
  | none =>
    dsimp only at ht
    cases hstart : stage.rules.startState stage.puzzle with
    | error fault =>
      rw [hstart] at ht
      cases ht
    | ok state =>
      rw [hstart] at ht
      cases ht
      rfl

namespace Player

/-- The latest action at a place gave the signal. -/
def Place.Decided (a : Place) (signal : Signal) : Prop :=
  ∃ program, a.program = some program ∧
    Decides a.stage.rules a.stage.puzzle program.actions a.step signal

/-- The program was played to its end, and is judged so. -/
def Place.Judged (a : Place) (solved : Bool) : Prop :=
  ∃ program, a.program = some program ∧ a.step = program.size ∧
    Judges a.stage.rules a.stage.puzzle a.stage.reference program.actions solved

/-! ## Deciding -/

/-- A transition that wins or loses is the transition of the rules, from the replay of what was
played before. -/
theorem Faithful.decided {a : Place} (h : Faithful a) (hfresh : a.stage.rules.StartsFresh)
    {program : Program} {action : Action} {t : Transition} (hprogram : a.program = some program)
    (haction : program.actions[a.step]? = some action)
    (ht : a.stage.transition a.state action = .ok t) (hsignal : t.signal ≠ .running)
    (latestIndex : Option Nat) :
    Place.Decided ⟨a.stage, a.program, some t.state, a.step + 1, latestIndex⟩ t.signal := by
  have hscan : action.isScan = false := by
    cases hscan : action.isScan with
    | false => rfl
    | true => exact absurd (Stage.transition_scan hscan ht) hsignal
  simp only [Stage.transition, hscan] at ht
  rw [if_neg Bool.false_ne_true] at ht
  refine ⟨program, hprogram, action, ?_⟩
  cases hstate : a.state with
  | some state =>
    obtain ⟨loaded, hloaded, _, hreplay⟩ := h.replayed state hstate
    obtain rfl : loaded = program := Option.some.inj (hloaded.symm.trans hprogram)
    exact ⟨state, t, Nat.succ_pos _, haction, hscan, hreplay, hstate ▸ ht, rfl⟩
  | none =>
    rw [hstate, hfresh action] at ht
    cases hstart : a.stage.rules.startState a.stage.puzzle with
    | error fault => rw [hstart] at ht; cases ht
    | ok state =>
      rw [hstart] at ht
      refine ⟨state, t, Nat.succ_pos _, haction, hscan, ?_, ht, rfl⟩
      show replay _ _ (program.actions.take a.step) = _
      rw [h.unplayed hstate, List.take_zero, replay, hstart]
      rfl

/-- The verdict at the end of the program is a judgement of its replay. -/
theorem Faithful.judged {a : Place} (h : Faithful a) {program : Program}
    (hprogram : a.program = some program) (hend : a.step = program.size) {solved : Bool}
    (hsolved : a.stage.solved a.state = .ok solved) : a.Judged solved := by
  refine ⟨program, hprogram, hend, ?_⟩
  unfold Stage.solved at hsolved
  cases hstate : a.state with
  | some state =>
    obtain ⟨loaded, hloaded, _, hreplay⟩ := h.replayed state hstate
    obtain rfl : loaded = program := Option.some.inj (hloaded.symm.trans hprogram)
    rw [hend, Program.size, List.take_length] at hreplay
    exact ⟨state, hreplay, by simpa only [hstate] using hsolved⟩
  | none =>
    have hempty : program.actions = [] :=
      List.length_eq_zero_iff.1 (hend.symm.trans (h.unplayed hstate))
    simp only [hstate] at hsolved
    cases hstart : a.stage.rules.startState a.stage.puzzle with
    | error fault => simp [hstart] at hsolved
    | ok state =>
      refine ⟨state, ?_, by simpa only [hstart] using hsolved⟩
      rw [hempty, replay, hstart]
      rfl

/-! ## The invariant -/

/-- The place bears out an ending that waits. A verdict is open until it is announced. -/
def Place.Foretells (a : Place) : Ending → Prop
  | .win => a.Decided .win
  | .lose => a.Decided .lost
  | .verdict => True

/-- The place bears out a status. Before the end of a run there is nothing to bear out. -/
def Place.Earns (a : Place) : Status → Prop
  | .won => a.Decided .win ∨ a.Judged true
  | .lost => a.Decided .lost
  | .failed => a.Judged false
  | .idle | .running | .paused => True

theorem Place.earns_of_not_over {a : Place} {status : Status} (h : status.isOver = false) :
    a.Earns status := by
  cases status with
  | won => cases h
  | lost => cases h
  | failed => cases h
  | _ => trivial

variable {σ : Type} [TimerSource σ]

/-- The outcome that a status stands for. That of a win has the hour of the latest one. -/
def dueOutcome (p : Player σ) : Outcome :=
  if p.status = .won then p.stage.winOutcome p.blockCount (p.wins - 1)
  else p.stage.endOutcome p.blockCount p.status

/-- What is announced, or about to be, has its reason in the place. -/
structure Justified (p : Player σ) : Prop where
  pending : ∀ timer ending, p.alarm = some ⟨timer, .announce ending⟩ → p.place.Foretells ending
  earned : p.place.Earns p.status
  outcome : ∀ outcome, p.outcome = some outcome → outcome = p.dueOutcome
  counted : p.status = .won → 0 < p.wins

omit [TimerSource σ] in
/-- Before the end of a run there is only the pending announcement to justify. -/
theorem justified_midway {p : Player σ} (hstatus : p.status.isOver = false)
    (houtcome : p.outcome = none)
    (hpending : ∀ timer ending, p.alarm = some ⟨timer, .announce ending⟩ →
      p.place.Foretells ending) : Justified p where
  pending := hpending
  earned := Place.earns_of_not_over hstatus
  outcome _ h := nomatch houtcome.symm.trans h
  counted hwon := by simp [hwon, Status.isOver] at hstatus

omit [TimerSource σ] in
/-- A player that waits for nothing before the end of a run. -/
theorem justified_quiet {p : Player σ} (hstatus : p.status.isOver = false)
    (houtcome : p.outcome = none) (halarm : p.alarm = none) : Justified p :=
  justified_midway hstatus houtcome fun _ _ h => nomatch halarm.symm.trans h

theorem justified_halt {p : Player σ} (houtcome : p.outcome = none) (fault : StepFault) :
    Justified (p.halt fault).player := by
  rw [halt_player]
  exact justified_quiet rfl houtcome rfl

theorem justified_awaitAnnouncement {q : Player σ} {ending : Ending}
    (hstatus : q.status.isOver = false) (houtcome : q.outcome = none)
    (hplace : q.place.Foretells ending) : Justified (q.awaitAnnouncement ending) := by
  obtain ⟨timer, timers, hawait⟩ := q.awaitAnnouncement_eq ending
  rw [hawait]
  refine justified_midway hstatus houtcome fun t e halarm => ?_
  obtain rfl : ending = e := by simpa using congrArg (Option.map Alarm.duty) halarm
  exact hplace

theorem justified_awaitAdvance {q : Player σ} (hstatus : q.status.isOver = false)
    (houtcome : q.outcome = none) : Justified q.awaitAdvance := by
  obtain ⟨timer, timers, hawait⟩ := q.awaitAdvance_eq
  rw [hawait]
  refine justified_midway hstatus houtcome fun t e halarm => ?_
  have hduty : Duty.advance = .announce e := by
    simpa using congrArg (Option.map Alarm.duty) halarm
  cases hduty

/-! ## Each course keeps the reasons -/

omit [TimerSource σ] in
theorem Poised.not_over {q : Player σ} {auto : Bool} (h : Poised q auto) :
    q.status.isOver = false := by
  rw [h.status]
  cases auto <;> rfl

theorem Played.justified {q : Player σ} {auto : Bool} {reply : Reply σ} (h : Played q auto reply)
    (hq : Poised q auto) (hfaithful : Faithful q.place) (hfresh : q.stage.rules.StartsFresh) :
    Justified reply.player := by
  have hstatus := hq.not_over
  have decided {action : Action} {t : Transition} (haction : q.action? q.step = some action)
      (ht : q.stage.transition q.state action = .ok t) (hsignal : t.signal ≠ .running) :
      (q.commit t.state).place.Decided t.signal := by
    obtain ⟨program, hprogram, hget⟩ := Option.bind_eq_some_iff.1 haction
    exact hfaithful.decided hfresh hprogram hget ht hsignal _
  cases h with
  | ended _ => exact justified_awaitAnnouncement hstatus hq.outcome trivial
  | faulted _ _ => exact justified_halt hq.outcome _
  | won haction ht hsignal =>
    refine justified_awaitAnnouncement hstatus hq.outcome ?_
    have hdecided := decided haction ht (by simp [hsignal])
    rwa [hsignal] at hdecided
  | lost haction ht hsignal =>
    refine justified_awaitAnnouncement hstatus hq.outcome ?_
    have hdecided := decided haction ht (by simp [hsignal])
    rwa [hsignal] at hdecided
  | last _ _ _ _ => exact justified_awaitAnnouncement hstatus hq.outcome trivial
  | onward _ _ _ _ _ => exact justified_awaitAdvance hstatus hq.outcome
  | held _ _ _ _ _ => exact justified_quiet hstatus hq.outcome hq.alarm

/-- An announcement has the reason that its timer was set for. -/
theorem Announced.justified {p : Player σ} {ending : Ending} {reply : Reply σ}
    (h : Announced p ending reply) (houtcome : p.outcome = none) (halarm : p.alarm = none)
    (hforetells : p.place.Foretells ending) (hfaithful : Faithful p.place)
    (hend : ending = .verdict → p.program ≠ none ∧ p.step = p.programSize) :
    Justified reply.player := by
  have judged {solved : Bool} (hverdict : ending = .verdict)
      (hsolved : p.stage.solved p.state = .ok solved) : p.place.Judged solved := by
    obtain ⟨hprogram, hstep⟩ := hend hverdict
    obtain ⟨program, hprogram⟩ := Option.ne_none_iff_exists'.1 hprogram
    have hsize : p.programSize = program.size := by rw [programSize, hprogram]
    exact hfaithful.judged hprogram (hstep.trans hsize) hsolved
  have quiet (timer : TimerNumber) (e : Ending) (h : p.alarm = some ⟨timer, .announce e⟩) :
      p.place.Foretells e := by
    rw [halarm] at h
    cases h
  have wins (hearned : p.place.Earns .won) : Justified p.concludeWin.player :=
    ⟨quiet, hearned, fun _ h => by cases h; rfl, fun _ => Nat.succ_pos _⟩
  cases h with
  | win => exact wins (.inl hforetells)
  | lose => exact ⟨quiet, hforetells, fun _ h => by cases h; rfl, fun h => by cases h⟩
  | solved hsolved => exact wins (.inr (judged rfl hsolved))
  | unsolved hsolved =>
    exact ⟨quiet, judged rfl hsolved, fun _ h => by cases h; rfl, fun h => by cases h⟩
  | faulted _ => exact justified_halt houtcome _

theorem Justified.resume {p : Player σ} (h : Justified p) (houtcome : p.outcome = none) :
    Justified p.resume := by
  unfold Player.resume
  dsimp only
  split
  · exact justified_awaitAdvance rfl houtcome
  · exact justified_midway rfl houtcome h.pending

theorem Justified.pause {p : Player σ} (h : Justified p) (hrunning : p.status = .running)
    (houtcome : p.outcome = none) : Justified p.pause := by
  rw [Player.pause, if_pos hrunning]
  cases p.isEnding with
  | true => exact justified_midway rfl houtcome h.pending
  | false =>
    rw [cancelAlarm_eq]
    exact justified_quiet rfl houtcome rfl

theorem Course.justified {p : Player σ} {control : Control} {reply : Reply σ}
    (h : Course p control reply) (hp : Justified p) (hcoherent : Coherent p)
    (hfaithful : Faithful p.place) (hfresh : p.stage.rules.StartsFresh) :
    Justified reply.player := by
  cases h with
  | @turned _ q auto turn =>
    have hstage : q.stage = p.stage := turn.move.stage_eq
    exact (q.played auto).justified (turn.poised hcoherent) (turn.faithful hfaithful)
      (hstage ▸ hfresh)
  | refused _ _ =>
    rw [Player.refused, reset_eq]
    exact justified_quiet rfl rfl rfl
  | resumed hpaused => exact hp.resume (hcoherent.outcome_eq_none (.inr hpaused))
  | paused hrunning => exact hp.pause hrunning (hcoherent.outcome_eq_none (.inl hrunning))
  | pauseIgnored _ => exact hp
  | stepIgnored _ => exact hp
  | rewound =>
    rw [Reply.done_player, reset_eq]
    exact justified_quiet rfl rfl rfl
  | cleared =>
    rw [Reply.done_player, clear, reset_eq]
    exact justified_quiet rfl rfl rfl
  | exchanged =>
    rw [Reply.done_player, useSource, clear, reset_eq]
    exact justified_quiet rfl rfl rfl
  | lost _ => exact hp
  | traveled _ _ =>
    rw [Reply.done_player, arrived, cancelAlarm_eq]
    exact justified_quiet rfl rfl rfl
  | strayed _ _ => exact justified_halt rfl _
  | slid => exact ⟨hp.pending, hp.earned, hp.outcome, hp.counted⟩
  | @announced timer ending halarm =>
    -- The place is the one at which the timer was set: its reason is still there.
    have hmidway := hcoherent.midway halarm
    refine (Player.announced { p with alarm := none } ending).justified
      (hcoherent.outcome_eq_none hmidway) rfl (hp.pending timer ending halarm) hfaithful ?_
    rintro rfl
    refine ⟨hcoherent.program_ne_none ?_, hcoherent.verdict timer halarm⟩
    rcases hmidway with h | h <;> simp [h]
  | dropped halarm hstatus => exact absurd (hcoherent.advance _ halarm) hstatus
  | stale _ => exact hp

theorem Reachable.justified {first p : Player σ} (h : Reachable first p)
    (hfresh : first.stage.rules.StartsFresh) (hfirst : Justified first)
    (hcoherent : Coherent first) (hrange : InRange first.place)
    (hfaithful : Faithful first.place) : Justified p := by
  induction h with
  | refl => exact hfirst
  | obey control hreach ih =>
    have hp := (hreach.coherent hcoherent hrange).1
    exact (course _ control).justified ih hp (hreach.faithful hfresh hfaithful)
      (hreach.stage_eq ▸ hfresh)
  | aside _ _ _ ih => exact ⟨ih.pending, ih.earned, ih.outcome, ih.counted⟩

/-- **Outcomes are justified.** Whatever a host does with a player whose rules start fresh, as the
four modes do: once a run is over, the program and the outcome are there. A lost run was lost by
its latest action, played in the replay of those before it. A won run was won so, or it ran to the
end and the replay of the whole program solves the puzzle. A failed run ran to the end, and that
replay does not. The outcome counts the blocks and names the par; stars and a completion code
are given for a win only. The hour of the code is the one at which the win was announced, the latest
of them. -/
theorem outcome_justified {registry : Registry} {puzzle : Puzzle} {source : ProgramSource}
    {timers : σ} {preferences : Preferences} {hours : Nat → Nat} {first p : Player σ}
    {rules : Rules}
    (hcreate : create registry puzzle source timers preferences hours = .ok first)
    (hrules : registry.find puzzle.mode = some rules) (hfresh : rules.StartsFresh)
    (hreach : Reachable first p) (hover : p.status.isOver = true) :
    ∃ program outcome reference, p.program = some program ∧ p.outcome = some outcome ∧
      Reference.ofPuzzle rules puzzle = .ok reference ∧
      (p.status = .lost → Decides rules puzzle program.actions p.step .lost) ∧
      (p.status = .won → Decides rules puzzle program.actions p.step .win ∨
        p.step = program.size ∧ Judges rules puzzle reference program.actions true) ∧
      (p.status = .failed →
        p.step = program.size ∧ Judges rules puzzle reference program.actions false) ∧
      outcome.status = p.status ∧ outcome.blockCount = program.blockCount ∧
      outcome.par = puzzle.par ∧
      outcome.stars = (if p.status = .won then starsFor program.blockCount puzzle.par else 0) ∧
      outcome.code = (if p.status = .won then
        some (completionCode puzzle.id outcome.stars program.blockCount (hours (p.wins - 1)))
        else none) ∧
      (p.status = .won → 0 < p.wins) := by
  obtain ⟨hcoherent, hrange⟩ := coherent_create hcreate
  obtain ⟨_, reference, hfind, href, rfl⟩ := create_eq_ok hcreate
  obtain rfl := Option.some.inj (hrules.symm.trans hfind)
  have hp := (hreach.coherent hcoherent hrange).1
  have hjust := hreach.justified hfresh (justified_quiet rfl rfl rfl) hcoherent hrange
    (faithful_outset _ _)
  have hstage : p.place.stage = ⟨rules, puzzle, reference, hours⟩ := hreach.stage_eq
  obtain ⟨program, hprogram⟩ := Option.ne_none_iff_exists'.1 (hp.program_ne_none fun hidle => by
    simp [hidle, Status.isOver] at hover)
  obtain ⟨outcome, houtcome⟩ := hp.outcome_iff.2 (isOver_iff.1 hover)
  have decides {signal : Signal} (h : p.place.Decided signal) :
      Decides rules puzzle program.actions p.step signal := by
    obtain ⟨loaded, hloaded, hdecides⟩ := h
    obtain rfl : loaded = program := Option.some.inj (hloaded.symm.trans hprogram)
    rw [hstage] at hdecides
    exact hdecides
  have judges {solved : Bool} (h : p.place.Judged solved) :
      p.step = program.size ∧ Judges rules puzzle reference program.actions solved := by
    obtain ⟨loaded, hloaded, hend, hjudges⟩ := h
    obtain rfl : loaded = program := Option.some.inj (hloaded.symm.trans hprogram)
    rw [hstage] at hjudges
    exact ⟨hend, hjudges⟩
  have hearned := hjust.earned
  have hblocks : p.blockCount = program.blockCount := by rw [blockCount, hprogram]
  have hdue : outcome = p.dueOutcome := hjust.outcome outcome houtcome
  refine ⟨program, outcome, reference, hprogram, houtcome, href, fun hlost => ?_, fun hwon => ?_,
    fun hfailed => ?_, (hp.outcome_eq outcome houtcome).1, ?_⟩
  · rw [hlost] at hearned
    exact decides hearned
  · rw [hwon] at hearned
    exact hearned.imp decides judges
  · rw [hfailed] at hearned
    exact judges hearned
  · have hstage : p.stage = ⟨rules, puzzle, reference, hours⟩ := hstage
    rw [hdue, dueOutcome, hblocks, hstage]
    split
    · exact ⟨rfl, rfl, rfl, rfl, hjust.counted⟩
    · exact ⟨rfl, rfl, rfl, rfl, hjust.counted⟩

/-- A new player of the blank puzzle. An hour goes by after each win. -/
def latecomer : Player RequestQueue :=
  { novice .empty with stage := ⟨Sandbox.rules, blankPuzzle, none, fun wins => 12 + wins⟩ }

theorem create_latecomer :
    create .standard blankPuzzle (.always twoLines) RequestQueue.empty .default
      (fun wins => 12 + wins) = .ok latecomer := rfl

/-- The two lines leave nothing to solve: the run is won by its verdict, with all stars. So is the
next run, an hour later. -/
theorem outcome_justified_latecomer :
    let controls := [.play, .deliver 1, .deliver 2, .play, .deliver 3, .deliver 4]
    let p := controls.foldl (fun p control => (p.obey control).player) latecomer
    Reachable latecomer p ∧ p.status = .won ∧ p.wins = 2 ∧
      ∃ outcome, p.outcome = some outcome ∧ outcome.stars = 3 ∧
        outcome.code = some (completionCode "blank" 3 2 13) := by
  intro controls p
  have hreach : Reachable latecomer p :=
    .obey (.deliver 4) (.obey (.deliver 3) (.obey .play
      (.obey (.deliver 2) (.obey (.deliver 1) (.obey .play .refl)))))
  have hwon : p.status = .won := rfl
  have hwins : p.wins = 2 := rfl
  obtain ⟨program, outcome, _, hprogram, houtcome, _, _, _, _, _, _, _, hstars, hcode, _⟩ :=
    outcome_justified create_latecomer rfl Sandbox.startsFresh hreach rfl
  cases hprogram
  rw [if_pos hwon] at hstars hcode
  refine ⟨hreach, hwon, hwins, outcome, houtcome, hstars, ?_⟩
  rw [hcode, hstars, hwins]
  rfl

end Player

end PuzzlePlayback
