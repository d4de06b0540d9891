/-!
# Sources of wakeups

Playback never waits. It asks a source of timers to be woken after a delay and is told later that
a timer is due. Delays are in milliseconds. Each source numbers its timers from one.
-/

namespace PuzzlePlayback

/-- The number of a timer. -/
abbrev TimerNumber := Nat

/-- A source of timers with state `σ`. -/
class TimerSource (σ : Type) where
  /-- Set a timer that is due after a delay; returns its number. -/
  set : σ → Nat → TimerNumber × σ
  /-- Forget a timer; numbers that are not set are ignored. -/
  cancel : σ → TimerNumber → σ

end PuzzlePlayback
