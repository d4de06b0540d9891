import PuzzlePlayback.CommandLine.Run
import PuzzlePlayback.Proofs.Driving
import PuzzlePlayback.Proofs.StopAndGo

/-!
# The command line program plays to an outcome

The command line program drives a player too, and takes the events after each delivery to print
them. Playback never looks at the events that it noted, so taking them changes nothing
(`deliver_recalling`), and the program ends where driving ends (`endsAs_playTraced`): with the
outcome, or with the error.

Main result: `driving_ends`.
-/

namespace PuzzlePlayback

variable {σ : Type}

/-! ## Events taken -/

namespace Player

/-- The same player, had it noted more events before. -/
def recalling (past : List Event) (p : Player σ) : Player σ := { p with events := past ++ p.events }

end Player

/-- The same reply, had the player noted more events before. -/
def Reply.recalling (past : List Event) (reply : Reply σ) : Reply σ :=
  ⟨reply.player.recalling past, reply.error⟩

namespace Player

theorem emit_recalling (past : List Event) (p : Player σ) (event : Event) :
    (p.recalling past).emit event = (p.emit event).recalling past := by
  simp [recalling, emit]

/-- A player is what is left of it once its events are taken, had it noted them before. -/
theorem recalling_takeEvents (p : Player σ) : p.takeEvents.2.recalling p.events = p := by
  simp [recalling, takeEvents]

theorem conclude_recalling (past : List Event) (p : Player σ) (outcome : Outcome) :
    (p.recalling past).conclude outcome = (p.conclude outcome).recalling past :=
  congrArg Reply.done
    (emit_recalling past { p with status := outcome.status, outcome := some outcome }
      (.settled outcome))

theorem concludeWin_recalling (past : List Event) (p : Player σ) :
    (p.recalling past).concludeWin = p.concludeWin.recalling past :=
  conclude_recalling past { p with wins := p.wins + 1 } _

theorem commit_recalling (past : List Event) (p : Player σ) (state : World) :
    (p.recalling past).commit state = (p.commit state).recalling past :=
  emit_recalling past
    { p with state := some state, step := p.step + 1, latestIndex := some p.step }
    (.stepped (p.step + 1) p.step)

variable [TimerSource σ] (past : List Event) (p : Player σ)

theorem cancelAlarm_recalling : (p.recalling past).cancelAlarm = p.cancelAlarm.recalling past := by
  rw [cancelAlarm_eq, cancelAlarm_eq]
  rfl

theorem await_recalling (delay : Nat) (duty : Duty) :
    (p.recalling past).await delay duty = (p.await delay duty).recalling past := by
  rw [await_eq, await_eq]
  rfl

theorem halt_recalling (fault : StepFault) :
    (p.recalling past).halt fault = (p.halt fault).recalling past := by
  unfold halt
  rw [cancelAlarm_recalling]
  exact congrArg (Reply.mk · _) (emit_recalling past { p.cancelAlarm with status := .paused } _)

theorem follow_recalling (auto : Bool) (signal : Signal) :
    (p.recalling past).follow auto signal = (p.follow auto signal).recalling past := by
  cases signal with
  | win => exact p.await_recalling past _ _
  | lost => exact p.await_recalling past _ _
  | running =>
    have hsize : (p.recalling past).programSize = p.programSize := rfl
    have hstep : (p.recalling past).step = p.step := rfl
    unfold follow
    dsimp only
    rw [hsize, hstep]
    split
    · exact p.await_recalling past _ _
    · split
      · exact p.await_recalling past _ _
      · rfl

theorem proceed_recalling (auto : Bool) :
    (p.recalling past).proceed auto = (p.proceed auto).recalling past := by
  have hnext : (p.recalling past).action? (p.recalling past).step = p.action? p.step := rfl
  have hplay (action : Action) :
      (p.recalling past).stage.transition (p.recalling past).state action =
        p.stage.transition p.state action := rfl
  unfold proceed
  rw [hnext]
  cases p.action? p.step with
  | none => exact congrArg Reply.done (p.await_recalling past _ _)
  | some action =>
    dsimp only
    rw [hplay]
    cases p.stage.transition p.state action with
    | error fault => exact p.halt_recalling past _
    | ok t =>
      dsimp only
      rw [commit_recalling, follow_recalling]
      rfl

theorem announce_recalling (ending : Ending) :
    (p.recalling past).announce ending = (p.announce ending).recalling past := by
  cases ending with
  | win => exact concludeWin_recalling past p
  | lose => exact conclude_recalling past p _
  | verdict =>
    have hsolved : (p.recalling past).stage.solved (p.recalling past).state =
      p.stage.solved p.state := rfl
    unfold announce
    dsimp only
    rw [hsolved]
    cases p.stage.solved p.state with
    | error fault => exact p.halt_recalling past _
    | ok solved =>
      cases solved with
      | true => exact concludeWin_recalling past p
      | false => exact conclude_recalling past p _

/-- **Playback does not look back.** A delivery does the same whatever was noted before. -/
theorem deliver_recalling (timer : TimerNumber) :
    (p.recalling past).deliver timer = (p.deliver timer).recalling past := by
  have halarm : (p.recalling past).alarm = p.alarm := rfl
  unfold deliver
  rw [halarm]
  cases p.alarm with
  | none => rfl
  | some alarm =>
    let q : Player σ := { p with alarm := none }
    dsimp only
    split
    · rfl
    · cases alarm.duty with
      | advance =>
        have hstatus : (p.recalling past).status = p.status := rfl
        dsimp only
        rw [hstatus]
        split
        · exact q.proceed_recalling past true
        · rfl
      | announce ending => exact q.announce_recalling past ending

end Player

/-! ## The loop of the program -/

namespace Player

variable (past : List Event) (p : Player ManualClock)

theorem deliverNext_recalling : (p.recalling past).deliverNext =
    p.deliverNext.map fun delivered => (delivered.1, delivered.2.recalling past) := by
  have htimers : (p.recalling past).timers = p.timers := rfl
  unfold deliverNext
  rw [htimers]
  cases p.timers.jump with
  | none => rfl
  | some popped =>
    exact congrArg (fun reply => some (popped.1, reply))
      (deliver_recalling past { p with timers := popped.2 } popped.1)

theorem playFor_recalling (n : Nat) :
    playFor n (p.recalling past) = (playFor n p).recalling past := by
  induction n generalizing p with
  | zero => rfl
  | succ n ih =>
    cases hnext : p.deliverNext with
    | none =>
      have hnone : (p.recalling past).deliverNext = none := by
        rw [deliverNext_recalling, hnext]
        rfl
      rw [playFor_of_none hnext, playFor_of_none hnone]
      rfl
    | some delivered =>
      obtain ⟨timer, reply⟩ := delivered
      have hsome : (p.recalling past).deliverNext = some (timer, reply.recalling past) := by
        rw [deliverNext_recalling, hnext]
        rfl
      rw [playFor_of_some hnext, playFor_of_some hsome]
      cases herror : reply.error with
      | none =>
        have hrecalling : (reply.recalling past).error = none := herror
        rw [Reply.andThen_of_done herror, Reply.andThen_of_done hrecalling]
        exact ih reply.player
      | some error =>
        have hrecalling : (reply.recalling past).error = some error := herror
        rw [Reply.andThen_of_error herror, Reply.andThen_of_error hrecalling]

end Player

namespace CommandLine

open Player

/-- The program ended as the reply says, having printed lines, the last one first: after an error
with code 1, else with the outcome last, and nothing before it unless it traces. -/
def EndsAs (trace : Bool) (printed : List String) (reply : Reply ManualClock) (output : Output) :
    Prop :=
  match reply.error with
  | some _ => ∃ lines, output = ⟨1, lines⟩
  | none => ∃ told, output = ⟨0, printed.reverse ++ told ++ outcomeLines reply.player⟩ ∧
      (trace = false → told = [])

theorem EndsAs.of_error {trace : Bool} {printed : List String} {reply : Reply ManualClock}
    {output : Output} {error : PlaybackError} (h : EndsAs trace printed reply output)
    (herror : reply.error = some error) : ∃ lines, output = ⟨1, lines⟩ := by
  unfold EndsAs at h
  rw [herror] at h
  exact h

theorem EndsAs.of_outcome {trace : Bool} {reply : Reply ManualClock} {output : Output}
    {outcome : Outcome} (h : EndsAs trace [] reply output) (hdone : reply.error = none)
    (houtcome : reply.player.outcome = some outcome) :
    ∃ lines, output = ⟨0, lines ++ outcome.toJson.lines⟩ ∧ (trace = false → lines = []) := by
  unfold EndsAs at h
  rw [hdone] at h
  obtain ⟨lines, hlines, hsilent⟩ := h
  refine ⟨lines, ?_, hsilent⟩
  rw [hlines, outcomeLines, houtcome]
  rfl

/-- What is printed on the way is told before the outcome. -/
theorem EndsAs.of_lines {trace : Bool} {printed lines : List String} {reply : Reply ManualClock}
    {output : Output} (h : EndsAs trace (lines.reverse ++ printed) reply output)
    (hlines : trace = false → lines = []) : EndsAs trace printed reply output := by
  unfold EndsAs at h ⊢
  split at h
  · exact h
  · obtain ⟨told, htold, hsilent⟩ := h
    refine ⟨lines ++ told, by simpa using htold, fun htrace => ?_⟩
    rw [hlines htrace, hsilent htrace]
    rfl

theorem endsAs_done {trace : Bool} {printed : List String} (p : Player ManualClock) :
    EndsAs trace printed (.done p) ⟨0, printed.reverse ++ outcomeLines p⟩ :=
  ⟨[], by simp, fun _ => rfl⟩

/-- What the player noted before does not matter. -/
theorem EndsAs.recalling {trace : Bool} {printed : List String} {reply : Reply ManualClock}
    {output : Output} (h : EndsAs trace printed reply output) (past : List Event) :
    EndsAs trace printed (reply.recalling past) output := h

/-- What the program prints of a delivery, if it traces. -/
def told (trace : Bool) (p : Player ManualClock) : List String :=
  if trace then traceLines p.timers.now p.events else []

theorem playTraced_of_error {trace : Bool} {n : Nat} {p : Player ManualClock}
    {printed : List String} {timer : TimerNumber} {reply : Reply ManualClock}
    {error : PlaybackError} (hnext : p.deliverNext = some (timer, reply))
    (herror : reply.error = some error) :
    playTraced trace (n + 1) p printed = ⟨1, printed.reverse⟩ := by
  simp only [playTraced, hnext, herror]

theorem playTraced_of_done {trace : Bool} {n : Nat} {p : Player ManualClock}
    {printed : List String} {timer : TimerNumber} {reply : Reply ManualClock}
    (hnext : p.deliverNext = some (timer, reply)) (herror : reply.error = none) :
    playTraced trace (n + 1) p printed =
      playTraced trace n reply.player.takeEvents.2
        ((told trace reply.player).reverse ++ printed) := by
  simp only [playTraced, hnext, herror]
  rfl

/-- The program ends where driving the player ends. By induction on what is allowed; the events
that it takes after a delivery change nothing. -/
theorem endsAs_playTraced (trace : Bool) (n : Nat) (p : Player ManualClock)
    (printed : List String) :
    EndsAs trace printed (playFor n p) (playTraced trace n p printed) := by
  induction n generalizing p printed with
  | zero => exact endsAs_done p
  | succ n ih =>
    cases hnext : p.deliverNext with
    | none =>
      rw [playFor_of_none hnext, playTraced, hnext]
      exact endsAs_done p
    | some delivered =>
      obtain ⟨timer, reply⟩ := delivered
      rw [playFor_of_some hnext]
      cases herror : reply.error with
      | some error =>
        rw [Reply.andThen_of_error herror, playTraced_of_error hnext herror, EndsAs, herror]
        exact ⟨_, rfl⟩
      | none =>
        have hfor : playFor n reply.player =
            (playFor n reply.player.takeEvents.2).recalling reply.player.events := by
          rw [← playFor_recalling, recalling_takeEvents]
        rw [Reply.andThen_of_done herror, playTraced_of_done hnext herror, hfor]
        refine ((ih _ _).of_lines fun htrace => ?_).recalling _
        rw [told, htrace]
        rfl

/-- The program plays and then drives the player. -/
theorem endsAs_play {options : Options} (hgoto : options.goto = none) {p : Player ManualClock}
    (herror : p.play.error = none) :
    EndsAs options.trace [] p.play.player.playOut (play options p) := by
  have hfor : p.play.player.playOut =
      (playFor p.play.player.deliveryBound p.play.player.takeEvents.2).recalling
        p.play.player.events := by
    rw [← playFor_recalling, recalling_takeEvents]
    rfl
  have hplay : play options p = playTraced options.trace p.play.player.deliveryBound
      p.play.player.takeEvents.2 (told options.trace p.play.player).reverse := by
    simp only [play, herror, hgoto, Option.isSome_none, Bool.false_eq_true, if_false]
    rfl
  rw [hfor, hplay, ← List.append_nil (told options.trace p.play.player).reverse]
  refine ((endsAs_playTraced _ _ _ _).of_lines fun htrace => ?_).recalling _
  rw [told, htrace]
  rfl

end CommandLine

open Player

/-- **Driving ends.** Take a player on a clock whose pending timer the host has neither cancelled
nor kept in its hand; there may be other timers in the queue. Driving it comes to an end, with at
most as many deliveries as there are timers in the queue and actions to come, and two. Without an
error no timer is left, nothing is pending and the player does not run; if it was running or waited
for an announcement, the run is over and has an outcome. An error leaves the player paused with
nothing pending. The command line program, once it has played, ends in the same way: with the
outcome of the run, or with the error. -/
theorem driving_ends {registry : Registry} {puzzle : Puzzle} {source : ProgramSource}
    {timers : ManualClock} {preferences : Preferences} {hours : Nat → Nat}
    {first : Player ManualClock}
    (hcreate : create registry puzzle source timers preferences hours = .ok first) :
    (∀ p hand, Hosted first p hand → (∀ timer ∈ hand, p.pendingTimer ≠ some timer) →
      ∃ k ≤ p.timers.queue.length + (p.programSize - p.step) + 2,
        Drives p k p.playOut ∧ (∀ j reply, Drives p j reply → j = k ∧ reply = p.playOut) ∧
        (p.playOut.error = none →
          p.playOut.player.timers.queue = [] ∧ p.playOut.player.alarm = none ∧
          p.playOut.player.status ≠ .running ∧
          (p.status = .running ∨ p.isEnding = true →
            p.playOut.player.status.isOver = true ∧
            ∃ outcome, p.playOut.player.outcome = some outcome)) ∧
        ∀ error, p.playOut.error = some error →
          p.playOut.player.status = .paused ∧ p.playOut.player.alarm = none) ∧
    ∀ options : CommandLine.Options, options.goto = none → first.play.error = none →
      (first.play.player.playOut.error = none →
        ∃ lines outcome, CommandLine.play options first = ⟨0, lines ++ outcome.toJson.lines⟩ ∧
          first.play.player.playOut.player.outcome = some outcome ∧
          outcome.status.isOver = true ∧ (options.trace = false → lines = [])) ∧
      ∀ error, first.play.player.playOut.error = some error →
        ∃ lines, CommandLine.play options first = ⟨1, lines⟩ := by
  obtain ⟨hcoherent, hrange⟩ := coherent_create hcreate
  have hidle : first.alarm = none ∧ first.status = .idle := by
    obtain ⟨_, _, _, _, rfl⟩ := create_eq_ok hcreate
    exact ⟨rfl, rfl⟩
  have hready {p : Player ManualClock} {hand : List TimerNumber} (h : Hosted first p hand)
      (hhand : ∀ timer ∈ hand, p.pendingTimer ≠ some timer) : Ready p :=
    h.ready hidle.1 hcoherent hrange hhand
  have hdrives {p : Player ManualClock} (hp : Ready p) :
      ∃ k ≤ p.deliveries, Drives p k p.playOut :=
    drives_playFor hp (deliveries_le_deliveryBound p)
  refine ⟨fun p hand hrun hhand => ?_, fun options hgoto herror => ?_⟩
  · have hp := hready hrun hhand
    obtain ⟨k, hk, hloop⟩ := hdrives hp
    obtain ⟨hcoherent, hends, hstill⟩ := hloop.ends hp
    refine ⟨k, Nat.le_trans hk (deliveries_le_deliveryBound p), hloop,
      fun j reply hother => hother.unique hloop, fun herror => ?_, hstill⟩
    obtain ⟨hqueue, halarm, hover⟩ := hends herror
    refine ⟨hqueue, halarm, hcoherent.status_ne_running halarm, fun hwaits => ?_⟩
    have hover := hover (hp.coherent.engaged hwaits)
    obtain ⟨outcome, houtcome, _⟩ := hcoherent.outcome_of_over hover
    exact ⟨hover, outcome, houtcome⟩
  · have hp : Ready first.play.player :=
      hready (.obey .play .start) fun _ hmember => absurd hmember List.not_mem_nil
    obtain ⟨k, _, hloop⟩ := hdrives hp
    obtain ⟨hcoherent, hends, _⟩ := hloop.ends hp
    have hprogram := CommandLine.endsAs_play hgoto herror
    refine ⟨fun hdone => ?_, fun error hfailed => hprogram.of_error hfailed⟩
    have hover := (hends hdone).2.2 (engaged_play hidle.2 herror)
    obtain ⟨outcome, houtcome, hstatus⟩ := hcoherent.outcome_of_over hover
    obtain ⟨lines, hlines, hsilent⟩ := hprogram.of_outcome hdone houtcome
    exact ⟨lines, outcome, hlines, houtcome, hstatus ▸ hover, hsilent⟩

/-- Options that ask for nothing but to play. -/
def plainOptions : CommandLine.Options :=
  ⟨"level.json", "program.json", none, none, none, none, false, none⟩

/-- Beside a timer of the host, and once the first timer was taken off the clock and delivered, the
two lines are driven to their outcome in two deliveries; the program prints that outcome. -/
theorem driving_ends_novice :
    let first := novice ManualClock.atZero
    let begun := (first.obey .play).player
    let joined := begun.onClock (begun.timers.set 10000).2
    let moved := joined.onClock (joined.timers.moveOn 1000).2
    let p := (moved.obey (.deliver 1)).player
    Hosted first p [] ∧ p.timers.queued = [3, 2] ∧ p.status = .running ∧
      (∃ outcome, p.playOut.player.outcome = some outcome) ∧ p.playOut.player.timers.queue = [] ∧
      ∃ lines outcome,
        CommandLine.play plainOptions first = ⟨0, lines ++ (Outcome.toJson outcome).lines⟩ ∧
        outcome.status.isOver = true := by
  intro first begun joined moved p
  have hjoined : Hosted first joined [] := .set 10000 (.obey .play .start)
  have hhand : (joined.timers.moveOn 1000).1 = [1] := by decide
  have hmoved : Hosted first moved [1] := by
    have := hjoined.moveOn 1000
    rw [hhand] at this
    exact this
  have hp : Hosted first p [] := hmoved.deliver List.mem_cons_self
  obtain ⟨hdrive, hprogram⟩ := driving_ends (create_novice ManualClock.atZero)
  obtain ⟨_, _, _, _, hends, _⟩ := hdrive p [] hp nofun
  have hdriven : p.playOut.error = none := by decide +kernel
  have hplayed : first.play.player.playOut.error = none := by decide +kernel
  obtain ⟨hqueue, _, _, houtcome⟩ := hends hdriven
  obtain ⟨lines, outcome, hlines, _, hover, _⟩ := (hprogram plainOptions rfl rfl).1 hplayed
  exact ⟨hp, by decide, rfl, (houtcome (.inl rfl)).2, hqueue, lines, outcome, hlines, hover⟩

end PuzzlePlayback
