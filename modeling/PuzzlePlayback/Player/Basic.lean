import PuzzlePlayback.CompletionCode
import PuzzlePlayback.Preferences
import PuzzlePlayback.Program.Compilation
import PuzzlePlayback.Rating
import PuzzlePlayback.Replay
import PuzzlePlayback.Timers.Delay
import PuzzlePlayback.Timers.Source
import PuzzlePlayback.World.Registry

/-!
# The player

A player plays a compiled program against a puzzle. It holds one status and at most one pending
timer, and every operation that supersedes the current playback cancels that timer first. The
world state is always the replay of the actions before `step`.

This module has the state of a player and its internal moves, each a function of its own; the
operations of the host are in `Player.Operations`.
-/

namespace PuzzlePlayback

/-! ## State -/

/-- An outcome that waits for its announcement. -/
inductive Ending
  /-- An action won. -/
  | win
  /-- An action lost. -/
  | lose
  /-- The actions ran out; the state decides. -/
  | verdict
deriving DecidableEq

/-- What is done when the pending timer is due. -/
inductive Duty
  | advance
  | announce (ending : Ending)
deriving DecidableEq

/-- A timer that playback waits for. -/
structure Alarm where
  timer : TimerNumber
  duty : Duty
deriving DecidableEq

/-- A notification for a host that subscribes. -/
inductive Event
  | started (size : Nat)
  | stepped (step action : Nat)
  | paused (step : Nat)
  | resumed (step : Nat)
  | reset
  | cleared
  | traveled (step : Nat)
  | settled (outcome : Outcome)
  | faulted (step : Nat) (message : String)
deriving DecidableEq

/-- Why an operation failed. -/
inductive PlaybackError
  | compile (error : CompilationError)
  | fault (fault : StepFault)
  /-- The reference solution of the puzzle faulted. -/
  | setup (fault : StepFault)
  | noProgram
  | unknownMode (mode : Mode)
deriving DecidableEq

def PlaybackError.message : PlaybackError → String
  | .compile error => error.message
  | .fault _ => "simulation fault during playback"
  | .setup _ => "engine setup failed"
  | .noProgram => "no compiled program to play back"
  | .unknownMode mode => "no environment registered for " ++ mode.name

/-- What stays the same while a puzzle is played. -/
structure Stage where
  rules : Rules
  puzzle : Puzzle
  reference : Option Reference
  /-- The hour of the day at each announcement of a win, in order. Completion codes are salted with
  it. -/
  hours : Nat → Nat

/-- A player whose timers come from `σ`. -/
structure Player (σ : Type) where
  stage : Stage
  source : ProgramSource
  timers : σ
  preferences : Preferences
  /-- The program being played; kept by a reset. -/
  program : Option Program
  /-- Absent until the first action of a run or a journey in time. -/
  state : Option World
  /-- The index of the next action. -/
  step : Nat
  /-- The index of the latest action. -/
  latestIndex : Option Nat
  status : Status
  outcome : Option Outcome
  /-- How many wins have been announced. -/
  wins : Nat
  alarm : Option Alarm
  /-- What the host has not been told yet, the oldest first. -/
  events : List Event

/-- The player after an operation, and the error that the operation reports, if any. -/
structure Reply (σ : Type) where
  player : Player σ
  error : Option PlaybackError

namespace Reply

variable {σ : Type}

/-- An operation that succeeded. -/
def done (player : Player σ) : Reply σ := ⟨player, none⟩

/-- Go on with the player unless there was an error. -/
def andThen (reply : Reply σ) (next : Player σ → Reply σ) : Reply σ :=
  match reply.error with
  | none => next reply.player
  | some _ => reply

end Reply

/-! ## One transition -/

namespace Stage

/-- Play one action from a state, or from the start of the puzzle. A scan changes nothing, but
leaves the world in being. -/
def transition (stage : Stage) (state : Option World) (action : Action) :
    Except Fault Transition :=
  if action.isScan then
    match state with
    | some state => .ok (.running state)
    | none => (stage.rules.startState stage.puzzle).map .running
  else stage.rules.step state (some action) stage.puzzle

/-- Is the puzzle solved in a state, or in its initial state? -/
def solved (stage : Stage) (state : Option World) : Except Fault Bool :=
  match state with
  | some state => stage.rules.solved state stage.puzzle stage.reference
  | none =>
    match stage.rules.startState stage.puzzle with
    | .ok initial => stage.rules.solved initial stage.puzzle stage.reference
    | .error fault => .error fault

/-- The outcome of a win with a program of so many blocks, after so many wins before. -/
def winOutcome (stage : Stage) (blockCount : UInt32) (wins : Nat) : Outcome :=
  let par := stage.puzzle.par
  (Outcome.unfinished blockCount par).won
    (completionCode stage.puzzle.id (starsFor blockCount par) blockCount (stage.hours wins))

/-- The outcome of a run that ended without a win. -/
def endOutcome (stage : Stage) (blockCount : UInt32) (status : Status) : Outcome :=
  (Outcome.unfinished blockCount stage.puzzle.par).endedAs status

end Stage

namespace Player

variable {σ : Type}

/-! ## Reading a player -/

/-- The number of actions of the program. -/
def programSize (p : Player σ) : Nat :=
  match p.program with
  | some program => program.size
  | none => 0

/-- The number of blocks of the program. -/
def blockCount (p : Player σ) : UInt32 :=
  match p.program with
  | some program => program.blockCount
  | none => 0

/-- The action of the program at an index. -/
def action? (p : Player σ) (index : Nat) : Option Action :=
  p.program.bind fun program => program.actions[index]?

/-- The latest action. -/
def latestAction (p : Player σ) : Option Action := p.latestIndex.bind p.action?

/-- Does an outcome wait for its announcement? -/
def isEnding (p : Player σ) : Bool :=
  match p.alarm with
  | some ⟨_, .announce _⟩ => true
  | _ => false

/-! ## Moves -/

/-- Note an event for the host. -/
def emit (p : Player σ) (event : Event) : Player σ := { p with events := p.events ++ [event] }

/-- Hand the noted events over to the host. -/
def takeEvents (p : Player σ) : List Event × Player σ := (p.events, { p with events := [] })

/-- Back to the start of the program, without the event. -/
def rewind (p : Player σ) : Player σ :=
  { p with state := none, step := 0, latestIndex := none, outcome := none, status := .idle }

variable [TimerSource σ]

/-- Give up waiting for the pending timer. -/
def cancelAlarm (p : Player σ) : Player σ :=
  match p.alarm with
  | some alarm => { p with timers := TimerSource.cancel p.timers alarm.timer, alarm := none }
  | none => p

/-- Wait for a new timer instead of the pending one. -/
def await (p : Player σ) (delay : Nat) (duty : Duty) : Player σ :=
  let p := p.cancelAlarm
  let (timer, timers) := TimerSource.set p.timers delay
  { p with timers, alarm := some ⟨timer, duty⟩ }

/-- Wait before the next action. -/
def awaitAdvance (p : Player σ) : Player σ :=
  p.await (pauseAfter p.preferences.speed p.stage.rules.mode p.latestAction) .advance

/-- The delay before an outcome is announced. -/
def endingDelay (p : Player σ) : Ending → Nat
  | .lose => usualAnnouncementDelay
  | .win | .verdict => announcementDelay p.stage.rules.mode

/-- Wait before an outcome is announced. -/
def awaitAnnouncement (p : Player σ) (ending : Ending) : Player σ :=
  p.await (p.endingDelay ending) (.announce ending)

/-- Back to the start of the program. -/
def reset (p : Player σ) : Player σ := p.cancelAlarm.rewind.emit .reset

/-- Stop because of a fault: playback pauses and waits for nothing. -/
def halt (p : Player σ) (fault : StepFault) : Reply σ :=
  ⟨{ p.cancelAlarm with status := .paused }.emit (.faulted fault.step fault.fault.message),
    some (.fault fault)⟩

/-- Start over with a freshly compiled program. If it does not compile the player stays idle with
the program it had. -/
def start (p : Player σ) (status : Status) : Reply σ :=
  let p := p.reset
  let (answer, source) := p.source.ask
  let p := { p with source }
  match answer with
  | .error error => ⟨p, some (.compile error)⟩
  | .ok program =>
    .done { p.emit (.started program.size) with program := some program, status }

/-- Take over the state after an action. -/
def commit (p : Player σ) (state : World) : Player σ :=
  { p with state := some state, step := p.step + 1, latestIndex := some p.step }.emit
    (.stepped (p.step + 1) p.step)

/-- Wait for what follows an action: an outcome at once if the action decides the run or was the
last one, else the next action if playback goes on by itself. -/
def follow (p : Player σ) (autoplay : Bool) : Signal → Player σ
  | .win => p.awaitAnnouncement .win
  | .lost => p.awaitAnnouncement .lose
  | .running =>
    if p.programSize ≤ p.step then p.awaitAnnouncement .verdict
    else if autoplay then p.awaitAdvance
    else p

/-- Play the next action and wait for what follows it; without a next action wait for the
verdict. -/
def proceed (p : Player σ) (autoplay : Bool) : Reply σ :=
  match p.action? p.step with
  | none => .done (p.awaitAnnouncement .verdict)
  | some action =>
    match p.stage.transition p.state action with
    | .ok result => .done ((p.commit result.state).follow autoplay result.signal)
    | .error fault => p.halt (fault.at p.step)

/-- Announce an outcome. -/
def conclude (p : Player σ) (outcome : Outcome) : Reply σ :=
  .done ({ p with status := outcome.status, outcome := some outcome }.emit (.settled outcome))

/-- Announce a win, at the hour that it is now. -/
def concludeWin (p : Player σ) : Reply σ :=
  { p with wins := p.wins + 1 }.conclude (p.stage.winOutcome p.blockCount p.wins)

/-- Announce what an ending comes to. -/
def announce (p : Player σ) : Ending → Reply σ
  | .win => p.concludeWin
  | .lose => p.conclude (p.stage.endOutcome p.blockCount .lost)
  | .verdict =>
    match p.stage.solved p.state with
    | .ok true => p.concludeWin
    | .ok false => p.conclude (p.stage.endOutcome p.blockCount .failed)
    | .error fault => p.halt (fault.at p.step)

end Player

end PuzzlePlayback
