import PuzzlePlayback.Proofs.PlayOut

/-!
# Errors stop playback

An operation can fail at many points: before it does anything, after the reset of a fresh start
and before its program compiles, at an action, in a half-replayed journey, at the verdict whose
timer is already taken. Wherever it fails, nothing stays half done: nothing is pending, there is
no outcome, and the player idles or pauses.

`Stumbles p control place fault` names the transition that fails and the place where it does;
`Halted` says what is left, error by error. Every course that ends in an error is one of four
(`Course.halted`).

Main result: `errors_stop_playback`.
-/

namespace PuzzlePlayback.Player

variable {σ : Type} [TimerSource σ]

/-! ## What is left after an error -/

/-- Asked for `control`, the player `p` comes to a transition at `place` that fails: the next
action of its turn, the verdict, or a journey. -/
inductive Stumbles (p : Player σ) : Control → Place → StepFault → Prop
  | action {control : Control} {q : Player σ} {auto : Bool} {action : Action} {fault : Fault} :
      Turn p control q auto → q.action? q.step = some action →
      q.stage.transition q.state action = .error fault →
      Stumbles p control q.place (fault.at q.step)
  | verdict {timer : TimerNumber} {fault : Fault} :
      p.alarm = some ⟨timer, .announce .verdict⟩ → p.stage.solved p.state = .error fault →
      Stumbles p (.deliver timer) p.place (fault.at p.step)
  | journey {n : Nat} {program : Program} {fault : StepFault} : p.program = some program →
      replay p.stage.rules p.stage.puzzle (program.actions.take (min n program.size)) =
        .error fault →
      Stumbles p (.travelTo n) p.place fault

/-- A player that plays nothing and has come to no end. -/
structure Stopped (after : Player σ) : Prop where
  alarm : after.alarm = none
  outcome : after.outcome = none
  status : after.status = .idle ∨ after.status = .paused

/-- What an operation that reports an error leaves of the player `p`. -/
inductive Halted (p : Player σ) (control : Control) (after : Player σ) : PlaybackError → Prop
  /-- Without a program nothing changes. -/
  | noProgram : after = p → Halted p control after .noProgram
  /-- A program that does not compile leaves the start of the one before. -/
  | compile {cause : CompilationError} : after.status = .idle →
      after.place = .outset p.stage p.program → Halted p control after (.compile cause)
  /-- A fault leaves the place where the transition failed, and is the latest event. For a fresh
  start that is the start of the new program, otherwise the place of `p`. -/
  | fault {fault : StepFault} : after.status = .paused →
      Stumbles p control after.place fault →
      (∀ status, Starts p control status → ∃ program, p.source.ask.1 = .ok program ∧
        after.place = .outset p.stage (some program)) →
      ((∀ status, ¬ Starts p control status) → after.place = p.place) →
      after.events.getLast? = some (.faulted fault.step fault.fault.message) →
      Halted p control after (.fault fault)

/-! ## How operations fail -/

/-- A player that stops because of a fault. -/
theorem stopped_halt {p : Player σ} (houtcome : p.outcome = none) (fault : StepFault) :
    Stopped (p.halt fault).player := by
  rw [halt_player]
  exact ⟨rfl, houtcome, .inr rfl⟩

theorem status_halt (p : Player σ) (fault : StepFault) :
    (p.halt fault).player.status = .paused := by
  rw [halt_player]

theorem getLast?_events_halt (p : Player σ) (fault : StepFault) :
    (p.halt fault).player.events.getLast? = some (.faulted fault.step fault.fault.message) := by
  rw [events_halt, List.getLast?_concat]

/-- A turn of a fresh start takes place at the start of the new program, any other one where the
player stands. -/
theorem Turn.place_cases {p q : Player σ} {control : Control} {auto : Bool}
    (h : Turn p control q auto) :
    (∀ status, Starts p control status → ∃ program, p.source.ask.1 = .ok program ∧
      q.place = .outset p.stage (some program)) ∧
    ((∀ status, ¬ Starts p control status) → q.place = p.place) := by
  cases h with
  | @fresh _ status program hstarts hanswer =>
    refine ⟨fun _ _ => ⟨program, hanswer, p.place_opened program status⟩, fun hnone => ?_⟩
    exact absurd hstarts (hnone status)
  | interrupted _ hrunning =>
    refine ⟨fun _ hstarts => ?_, fun _ => p.place_pause⟩
    cases hstarts with
    | stepOnce _ hnot _ => exact absurd hrunning hnot
  | single _ hpaused =>
    refine ⟨fun _ hstarts => ?_, fun _ => rfl⟩
    cases hstarts with
    | stepOnce _ _ hnot => exact absurd hpaused hnot
  | due _ _ => exact ⟨nofun, fun _ => rfl⟩

/-- Only the verdict can fail. -/
theorem Announced.of_error {p : Player σ} {ending : Ending} {reply : Reply σ}
    {error : PlaybackError} (h : Announced p ending reply) (herror : reply.error = some error) :
    ∃ fault, ending = .verdict ∧ p.stage.solved p.state = .error fault ∧
      reply = p.halt (fault.at p.step) := by
  cases h with
  | faulted hfault => exact ⟨_, rfl, hfault, rfl⟩
  | _ => cases herror

/-- A turn that fails stops where its action was to be played. -/
theorem Turn.halted {p q : Player σ} {control : Control} {auto : Bool} {error : PlaybackError}
    {reply : Reply σ} (h : Turn p control q auto) (hp : Coherent p) (hplayed : Played q auto reply)
    (herror : reply.error = some error) :
    Stopped reply.player ∧ Halted p control reply.player error := by
  cases hplayed with
  | @faulted action fault haction hfault =>
    cases herror
    refine ⟨stopped_halt (h.poised hp).outcome _, .fault (status_halt _ _) ?_ ?_ ?_
      (getLast?_events_halt _ _)⟩
    · rw [place_halt]
      exact .action h haction hfault
    · rw [place_halt]
      exact h.place_cases.1
    · rw [place_halt]
      exact h.place_cases.2
  | _ => cases herror

/-- Whatever fails leaves the player stopped. -/
theorem Course.halted {p : Player σ} {control : Control} {reply : Reply σ} {error : PlaybackError}
    (h : Course p control reply) (hp : Coherent p) (herror : reply.error = some error) :
    Stopped reply.player ∧ Halted p control reply.player error := by
  cases h with
  | @turned _ q auto turn => exact turn.halted hp (q.played auto) herror
  | refused _ _ =>
    cases herror
    refine ⟨?_, .compile ?_ p.place_refused⟩
    · rw [Player.refused, reset_eq]
      exact ⟨rfl, rfl, .inl rfl⟩
    · rw [Player.refused, reset_eq]
  | lost hprogram =>
    cases herror
    have hidle := hp.unloaded hprogram
    refine ⟨⟨(hp.idle hidle).2.2, ?_, .inl hidle⟩, .noProgram rfl⟩
    exact Option.eq_none_iff_forall_not_mem.2 fun outcome houtcome => by
      have hover := hp.outcome_iff.1 ⟨outcome, houtcome⟩
      simp [hidle] at hover
  | strayed hprogram hfault =>
    cases herror
    refine ⟨stopped_halt rfl _, .fault (status_halt _ _) ?_ (fun _ hstarts => ?_)
      (fun _ => place_halt _ _) (getLast?_events_halt _ _)⟩
    · rw [place_halt]
      exact .journey hprogram hfault
    · cases hstarts
  | @announced timer ending halarm =>
    obtain ⟨fault, rfl, hfault, hreply⟩ :=
      (Player.announced { p with alarm := none } ending).of_error herror
    rw [hreply] at herror ⊢
    cases herror
    have houtcome := hp.outcome_eq_none (hp.midway halarm)
    refine ⟨stopped_halt (p := { p with alarm := none }) houtcome _,
      .fault (status_halt _ _) ?_ (fun _ hstarts => ?_) (fun _ => place_halt _ _)
        (getLast?_events_halt _ _)⟩
    · rw [place_halt]
      exact .verdict halarm hfault
    · cases hstarts
  | _ => cases herror

/-- A drive that fails does so at one of its deliveries. -/
theorem playFor_error {start p : Player ManualClock} (hp : Reachable start p) {n : Nat}
    {error : PlaybackError} (herror : (playFor n p).error = some error) :
    ∃ q timer, Reachable start q ∧ playFor n p = q.obey (.deliver timer) := by
  rcases playFor_cases hp (fun {p} clock h => h.aside clock p.events) (fun _ h => h.obey _) n
    with ⟨q, -, hdone⟩ | hfailed
  · rw [hdone] at herror
    cases herror
  · exact hfailed

/-- **Errors stop playback.** Whatever a host did with a new player, an operation that reports an
error leaves it stopped, where `Halted` says. A drive that reports an error comes to what one of
its deliveries comes to. -/
theorem errors_stop_playback {registry : Registry} {puzzle : Puzzle} {source : ProgramSource}
    {timers : σ} {preferences : Preferences} {hours : Nat → Nat} {first : Player σ}
    (hcreate : create registry puzzle source timers preferences hours = .ok first) :
    (∀ p control error, Reachable first p → (p.obey control).error = some error →
      Stopped (p.obey control).player ∧ Halted p control (p.obey control).player error) ∧
    ∀ (start p : Player ManualClock) (error : PlaybackError), Reachable start p →
      p.playOut.error = some error →
      ∃ q timer, Reachable start q ∧ p.playOut = q.obey (.deliver timer) := by
  obtain ⟨hfirst, hrange⟩ := coherent_create hcreate
  refine ⟨fun p control error hreach herror => ?_, fun _ _ _ hreach => playFor_error hreach⟩
  exact (p.course control).halted (hreach.coherent hfirst hrange).1 herror

/-- A maze without a grid. -/
def gridless : Puzzle := { id := "gridless", mode := .maze }

/-- Without an action to play nothing fails before the verdict, which the clock delivers. -/
theorem errors_stop_playback_gridless :
    let first : Player ManualClock := ⟨⟨Walk.rules, gridless, none, fun _ => 12⟩,
      .always (.ofActions []), .atZero, .default, none, none, 0, none, .idle, none, 0, none, []⟩
    let p := (first.obey .play).player
    let error : PlaybackError := .fault ⟨0, ⟨.maze, .missingSection "grid"⟩⟩
    (first.obey .play).error = none ∧ p.playOut.error = some error ∧ Stopped p.playOut.player ∧
      ∃ q timer, Reachable first q ∧ Halted q (.deliver timer) p.playOut.player error := by
  intro first p error
  have hcreate : create .standard gridless (.always (.ofActions [])) ManualClock.atZero .default
      (fun _ => 12) = .ok first := rfl
  have herror : p.playOut.error = some error := rfl
  obtain ⟨hstops, hdrive⟩ := errors_stop_playback hcreate
  obtain ⟨q, timer, hq, hplayed⟩ := hdrive first p error (.obey .play .refl) herror
  rw [hplayed] at herror ⊢
  obtain ⟨hstopped, hhalted⟩ := hstops q (.deliver timer) error hq herror
  exact ⟨rfl, herror, hstopped, q, timer, hq, hhalted⟩

end PuzzlePlayback.Player
