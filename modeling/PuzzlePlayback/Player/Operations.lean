import PuzzlePlayback.Player.Basic
import PuzzlePlayback.Timers.ManualClock

/-!
# Operations of the host

Run, pause, single step, reset, travel in time, and the delivery of timers. A timer other than
the pending one is stale and ignored, so a late delivery never acts on a state that was replaced.
-/

namespace PuzzlePlayback.Player

variable {σ : Type}

/-- A player for a puzzle, with the rules on offer for its mode and the hours at which wins will be
announced. The reference solution of the puzzle is replayed here, once. -/
def create (registry : Registry) (puzzle : Puzzle) (source : ProgramSource) (timers : σ)
    (preferences : Preferences) (hours : Nat → Nat) : Except PlaybackError (Player σ) :=
  match registry.find puzzle.mode with
  | none => .error (.unknownMode puzzle.mode)
  | some rules =>
    match Reference.ofPuzzle rules puzzle with
    | .error fault => .error (.setup fault)
    | .ok reference => .ok {
        stage := ⟨rules, puzzle, reference, hours⟩
        source
        timers
        preferences
        program := none
        state := none
        step := 0
        latestIndex := none
        status := .idle
        outcome := none
        wins := 0
        alarm := none
        events := [] }

/-- Move the speed slider; the next pause is the first one that it changes. -/
def moveSlider (p : Player σ) (speed : UInt8) : Player σ :=
  { p with preferences := { p.preferences with speed := min speed topSpeed } }

variable [TimerSource σ]

/-- Go on after a pause. An outcome that waits is still waited for. -/
def resume (p : Player σ) : Player σ :=
  let p := { p with status := .running }.emit (.resumed p.step)
  if p.alarm.isNone then p.awaitAdvance else p

/-- Resume when paused, else play a freshly compiled program from its start. -/
def play (p : Player σ) : Reply σ :=
  if p.status = .paused then .done p.resume
  else (p.start .running).andThen (proceed · true)

/-- Stop playback by itself. An outcome that waits will still be announced. -/
def pause (p : Player σ) : Player σ :=
  if p.status = .running then
    let p := if p.isEnding then p else p.cancelAlarm
    { p with status := .paused }.emit (.paused p.step)
  else p

/-- Play exactly one action and stay paused. While an outcome waits nothing happens. -/
def stepOnce (p : Player σ) : Reply σ :=
  if p.isEnding then .done p
  else
    match p.status with
    | .running => p.pause.proceed false
    | .paused => p.proceed false
    | _ => (p.start .paused).andThen (proceed · false)

/-- Forget the program too. -/
def clear (p : Player σ) : Player σ :=
  { p with program := none }.reset.emit .cleared

/-- Use another source of programs. The present program no longer stands for it and is
forgotten. -/
def useSource (p : Player σ) (source : ProgramSource) : Player σ :=
  { p with source }.clear

/-- Rebuild the state after the first `n` actions and pause there; beyond the end is the end. -/
def travelTo (p : Player σ) (n : Nat) : Reply σ :=
  match p.program with
  | none => ⟨p, some .noProgram⟩
  | some program =>
    let n := min n program.size
    let p := { p.cancelAlarm with outcome := none }
    match replay p.stage.rules p.stage.puzzle (program.actions.take n) with
    | .error fault => p.halt fault
    | .ok state =>
      .done ({ p with
        state := some state
        step := n
        latestIndex := if n = 0 then none else some (n - 1)
        status := .paused }.emit (.traveled n))

/-- Deliver a timer. -/
def deliver (p : Player σ) (timer : TimerNumber) : Reply σ :=
  match p.alarm with
  | none => .done p
  | some alarm =>
    if alarm.timer ≠ timer then .done p
    else
      let p := { p with alarm := none }
      match alarm.duty with
      | .advance => if p.status = .running then p.proceed true else .done p
      | .announce ending => p.announce ending

/-! ## Playing on a manual clock -/

/-- Jump to the next timer of the clock and deliver it. -/
def deliverNext (p : Player ManualClock) : Option (TimerNumber × Reply ManualClock) :=
  p.timers.jump.map fun popped => (popped.1, { p with timers := popped.2 }.deliver popped.1)

/-- Let time pass and deliver every timer that came due, in order. Of several errors the last one is
reported. -/
def elapse (p : Player ManualClock) (span : Nat) : List TimerNumber × Reply ManualClock :=
  let (due, timers) := p.timers.moveOn span
  (due, due.foldl (fun reply timer =>
    let next := reply.player.deliver timer
    ⟨next.player, next.error.or reply.error⟩) (.done { p with timers }))

/-- Deliver up to `n` timers, until none is left or an error is reported. -/
def playFor : Nat → Player ManualClock → Reply ManualClock
  | 0, p => .done p
  | n + 1, p =>
    match p.deliverNext with
    | none => .done p
    | some (_, reply) => reply.andThen (playFor n)

/-- A bound on the deliveries until no timer is left: those in the queue, one for each action
still to come, the verdict and its announcement. -/
def deliveryBound (p : Player ManualClock) : Nat :=
  p.timers.queue.length + (p.programSize - p.step) + 2

/-- Deliver timers until none is left. -/
def playOut (p : Player ManualClock) : Reply ManualClock := playFor p.deliveryBound p

end PuzzlePlayback.Player
