import PuzzlePlayback.Timers.Source

/-!
# A clock that moves when told to

Timers are queued by the time they are due; those due at the same time stay in the order in which
they were set. The clock jumps to the next timer (`jump`) or moves on by a span and hands out
what came due (`moveOn`).
-/

namespace PuzzlePlayback

/-- A timer that is set. -/
structure Timer where
  due : Nat
  id : TimerNumber
deriving DecidableEq

/-- A clock and the timers set on it, the next one first. -/
structure ManualClock where
  now : Nat
  lastId : TimerNumber
  queue : List Timer
deriving DecidableEq

namespace ManualClock

/-- A clock at time zero without timers. -/
def atZero : ManualClock := ⟨0, 0, []⟩

/-- Queue a timer behind all that are due no later. -/
def enqueue (timer : Timer) : List Timer → List Timer
  | [] => [timer]
  | next :: rest =>
    if timer.due < next.due then timer :: next :: rest else next :: enqueue timer rest

theorem mem_enqueue {timer other : Timer} {queue : List Timer} :
    other ∈ enqueue timer queue ↔ other = timer ∨ other ∈ queue := by
  induction queue with
  | nil => simp [enqueue]
  | cons next rest ih =>
    unfold enqueue
    split
    · exact List.mem_cons
    · simp only [List.mem_cons, ih]
      exact or_left_comm

/-- Set a timer. -/
def set (clock : ManualClock) (delay : Nat) : TimerNumber × ManualClock :=
  let id := clock.lastId + 1
  (id, { clock with lastId := id, queue := enqueue ⟨clock.now + delay, id⟩ clock.queue })

/-- Forget a timer. -/
def cancel (clock : ManualClock) (id : TimerNumber) : ManualClock :=
  { clock with queue := clock.queue.filter fun timer => timer.id != id }

instance : TimerSource ManualClock := ⟨set, cancel⟩

/-- Jump to the next timer and hand it out. -/
def jump (clock : ManualClock) : Option (TimerNumber × ManualClock) :=
  match clock.queue with
  | [] => none
  | timer :: rest => some (timer.id, { clock with now := max clock.now timer.due, queue := rest })

/-- Move on by a span and hand out every timer that came due, in order. -/
def moveOn (clock : ManualClock) (span : Nat) : List TimerNumber × ManualClock :=
  let now := clock.now + span
  ((clock.queue.takeWhile fun timer => timer.due ≤ now).map (·.id),
    { clock with now, queue := clock.queue.dropWhile fun timer => timer.due ≤ now })

end ManualClock

end PuzzlePlayback
