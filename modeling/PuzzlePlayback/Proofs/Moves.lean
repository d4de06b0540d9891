import PuzzlePlayback.Player.Operations

/-!
# The moves of a player as updates

Each internal move of a player written out as the fields it sets, and what it does to the
*place*: the program, the state that came of it, and how far it was played. Waiting, halting,
pausing, resuming and announcing leave the place alone.
-/

namespace PuzzlePlayback

@[simp] theorem Reply.done_player {σ : Type} (p : Player σ) : (Reply.done p).player = p := rfl

namespace Player

variable {σ : Type} [TimerSource σ]

/-! ## Moves as updates -/

/-- The number of the pending timer. -/
def pendingTimer (p : Player σ) : Option TimerNumber := p.alarm.map (·.timer)

/-- The timers once the pending one is given up. -/
def silenced (p : Player σ) : σ :=
  match p.alarm with
  | some alarm => TimerSource.cancel p.timers alarm.timer
  | none => p.timers

theorem cancelAlarm_eq (p : Player σ) :
    p.cancelAlarm = { p with timers := p.silenced, alarm := none } := by
  obtain ⟨_, _, _, _, _, _, _, _, _, _, _, alarm, _⟩ := p
  cases alarm <;> rfl

theorem await_eq (p : Player σ) (delay : Nat) (duty : Duty) :
    p.await delay duty = { p with
      timers := (TimerSource.set p.silenced delay).2
      alarm := some ⟨(TimerSource.set p.silenced delay).1, duty⟩ } := by
  rw [await, cancelAlarm_eq]

theorem awaitAdvance_eq (p : Player σ) : ∃ timer timers,
    p.awaitAdvance = { p with timers, alarm := some ⟨timer, .advance⟩ } :=
  ⟨_, _, p.await_eq _ _⟩

theorem awaitAnnouncement_eq (p : Player σ) (ending : Ending) : ∃ timer timers,
    p.awaitAnnouncement ending = { p with timers, alarm := some ⟨timer, .announce ending⟩ } :=
  ⟨_, _, p.await_eq _ _⟩

theorem reset_eq (p : Player σ) : p.reset = { p with
    timers := p.silenced, state := none, step := 0, latestIndex := none, status := .idle,
    outcome := none, alarm := none, events := p.events ++ [.reset] } := by
  rw [reset, cancelAlarm_eq]
  rfl

theorem halt_player (p : Player σ) (fault : StepFault) : (p.halt fault).player = { p with
    timers := p.silenced, status := .paused, alarm := none
    events := p.events ++ [.faulted fault.step fault.fault.message] } := by
  rw [halt, cancelAlarm_eq]
  rfl

/-- The player right after a compilation that failed. -/
def refused (p : Player σ) : Player σ := { p.reset with source := p.source.ask.2 }

/-- The player right after a compilation, about to play the program from its start. -/
def opened (p : Player σ) (program : Program) (status : Status) : Player σ :=
  { p.refused.emit (.started program.size) with program := some program, status }

theorem start_eq (p : Player σ) (status : Status) : p.start status =
    match p.source.ask.1 with
    | .error error => ⟨p.refused, some (.compile error)⟩
    | .ok program => .done (p.opened program status) := by
  have hsource : p.reset.source = p.source := by rw [reset_eq]
  simp only [start, hsource]
  cases p.source.ask.1 <;> rfl

/-- The player at the end of a journey. -/
def arrived (p : Player σ) (n : Nat) (state : World) : Player σ :=
  { p.cancelAlarm with
    outcome := none
    state := some state
    step := n
    latestIndex := if n = 0 then none else some (n - 1)
    status := .paused
    events := p.events ++ [.traveled n] }

/-! ## Places -/

/-- Where playback stands: what is played, how far, and what came of it. -/
structure Place where
  stage : Stage
  program : Option Program
  state : Option World
  step : Nat
  latestIndex : Option Nat

/-- The place of a player. -/
def place (p : Player σ) : Place := ⟨p.stage, p.program, p.state, p.step, p.latestIndex⟩

/-- The start of a program, or of none. -/
def Place.outset (stage : Stage) (program : Option Program) : Place :=
  ⟨stage, program, none, 0, none⟩

omit [TimerSource σ] in
@[simp] theorem place_emit (p : Player σ) (event : Event) : (p.emit event).place = p.place := rfl

omit [TimerSource σ] in
@[simp] theorem place_commit (p : Player σ) (state : World) :
    (p.commit state).place =
      ⟨p.stage, p.program, some state, p.step + 1, some p.step⟩ := rfl

@[simp] theorem place_cancelAlarm (p : Player σ) : p.cancelAlarm.place = p.place := by
  rw [cancelAlarm_eq]
  rfl

@[simp] theorem place_await (p : Player σ) (delay : Nat) (duty : Duty) :
    (p.await delay duty).place = p.place := by
  rw [await_eq]
  rfl

@[simp] theorem place_awaitAdvance (p : Player σ) : p.awaitAdvance.place = p.place :=
  p.place_await _ _

@[simp] theorem place_awaitAnnouncement (p : Player σ) (ending : Ending) :
    (p.awaitAnnouncement ending).place = p.place := p.place_await _ _

@[simp] theorem place_follow (p : Player σ) (auto : Bool) (signal : Signal) :
    (p.follow auto signal).place = p.place := by
  unfold follow
  split
  · exact p.place_awaitAnnouncement _
  · exact p.place_awaitAnnouncement _
  · split
    · exact p.place_awaitAnnouncement _
    · split
      · exact p.place_awaitAdvance
      · rfl

@[simp] theorem place_halt (p : Player σ) (fault : StepFault) :
    (p.halt fault).player.place = p.place := by
  rw [halt_player]
  rfl

@[simp] theorem place_announce (p : Player σ) (ending : Ending) :
    (p.announce ending).player.place = p.place := by
  unfold announce
  split
  · rfl
  · rfl
  · split
    · rfl
    · rfl
    · exact p.place_halt _

@[simp] theorem place_resume (p : Player σ) : p.resume.place = p.place := by
  unfold resume
  dsimp only
  split
  · rw [place_awaitAdvance]
    rfl
  · rfl

@[simp] theorem place_pause (p : Player σ) : p.pause.place = p.place := by
  unfold pause
  split
  · dsimp only
    split
    · rfl
    · exact p.place_cancelAlarm
  · rfl

@[simp] theorem place_reset (p : Player σ) : p.reset.place = .outset p.stage p.program := by
  rw [reset_eq]
  rfl

@[simp] theorem place_refused (p : Player σ) : p.refused.place = .outset p.stage p.program :=
  p.place_reset

@[simp] theorem place_opened (p : Player σ) (program : Program) (status : Status) :
    (p.opened program status).place = .outset p.stage program := by
  rw [opened, refused, reset_eq]
  rfl

@[simp] theorem place_clear (p : Player σ) : p.clear.place = .outset p.stage none := by
  rw [clear, place_emit, place_reset]

@[simp] theorem place_useSource (p : Player σ) (source : ProgramSource) :
    (p.useSource source).place = .outset p.stage none := by
  rw [useSource, place_clear]

@[simp] theorem place_arrived (p : Player σ) (n : Nat) (state : World) :
    (p.arrived n state).place =
      ⟨p.stage, p.program, some state, n, if n = 0 then none else some (n - 1)⟩ := by
  rw [arrived, cancelAlarm_eq]
  rfl

/-! ## What the host is told -/

omit [TimerSource σ] in
@[simp] theorem events_emit (p : Player σ) (event : Event) :
    (p.emit event).events = p.events ++ [event] := rfl

omit [TimerSource σ] in
@[simp] theorem events_commit (p : Player σ) (state : World) :
    (p.commit state).events = p.events ++ [.stepped (p.step + 1) p.step] := rfl

omit [TimerSource σ] in
@[simp] theorem events_conclude (p : Player σ) (outcome : Outcome) :
    (p.conclude outcome).player.events = p.events ++ [.settled outcome] := rfl

omit [TimerSource σ] in
@[simp] theorem events_concludeWin (p : Player σ) : p.concludeWin.player.events =
    p.events ++ [.settled (p.stage.winOutcome p.blockCount p.wins)] := rfl

@[simp] theorem events_await (p : Player σ) (delay : Nat) (duty : Duty) :
    (p.await delay duty).events = p.events := by
  rw [await_eq]

@[simp] theorem events_awaitAdvance (p : Player σ) : p.awaitAdvance.events = p.events :=
  p.events_await _ _

@[simp] theorem events_awaitAnnouncement (p : Player σ) (ending : Ending) :
    (p.awaitAnnouncement ending).events = p.events := p.events_await _ _

@[simp] theorem events_halt (p : Player σ) (fault : StepFault) :
    (p.halt fault).player.events =
      p.events ++ [.faulted fault.step fault.fault.message] := by
  rw [halt_player]

@[simp] theorem events_resume (p : Player σ) :
    p.resume.events = p.events ++ [.resumed p.step] := by
  unfold resume
  dsimp only
  split
  · rw [events_awaitAdvance]
    rfl
  · rfl

theorem events_pause {p : Player σ} (h : p.status = .running) :
    p.pause.events = p.events ++ [.paused p.step] := by
  rw [pause, if_pos h]
  dsimp only
  split
  · rfl
  · rw [cancelAlarm_eq]
    rfl

@[simp] theorem events_reset (p : Player σ) : p.reset.events = p.events ++ [.reset] := by
  rw [reset_eq]

@[simp] theorem events_refused (p : Player σ) : p.refused.events = p.events ++ [.reset] :=
  p.events_reset

@[simp] theorem events_opened (p : Player σ) (program : Program) (status : Status) :
    (p.opened program status).events = p.events ++ [.reset, .started program.size] := by
  show p.reset.events ++ [.started program.size] = _
  rw [events_reset, List.append_assoc]
  rfl

@[simp] theorem events_clear (p : Player σ) :
    p.clear.events = p.events ++ [.reset, .cleared] := by
  rw [clear, events_emit, events_reset, List.append_assoc]
  rfl

@[simp] theorem events_useSource (p : Player σ) (source : ProgramSource) :
    (p.useSource source).events = p.events ++ [.reset, .cleared] := by
  rw [useSource, events_clear]

@[simp] theorem events_arrived (p : Player σ) (n : Nat) (state : World) :
    (p.arrived n state).events = p.events ++ [.traveled n] := rfl

/-! ## The next action -/

omit [TimerSource σ] in
theorem action?_eq_none_iff (p : Player σ) (index : Nat) :
    p.action? index = none ↔ p.programSize ≤ index := by
  unfold action? programSize
  cases p.program with
  | none => simp
  | some program => simp [Program.size]

omit [TimerSource σ] in
theorem lt_programSize {p : Player σ} {index : Nat} {action : Action}
    (h : p.action? index = some action) : index < p.programSize := by
  refine Nat.lt_of_not_le fun hge => ?_
  rw [(p.action?_eq_none_iff index).2 hge] at h
  cases h

theorem proceed_of_ok {q : Player σ} {action : Action} {t : Transition}
    (haction : q.action? q.step = some action)
    (ht : q.stage.transition q.state action = .ok t) (auto : Bool) :
    q.proceed auto = .done ((q.commit t.state).follow auto t.signal) := by
  simp only [proceed, haction, ht]

theorem proceed_of_error {q : Player σ} {action : Action} {fault : Fault}
    (haction : q.action? q.step = some action)
    (ht : q.stage.transition q.state action = .error fault) (auto : Bool) :
    q.proceed auto = q.halt (fault.at q.step) := by
  simp only [proceed, haction, ht]

end Player

end PuzzlePlayback
