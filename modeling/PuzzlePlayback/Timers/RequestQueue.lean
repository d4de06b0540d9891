import PuzzlePlayback.Timers.Source

/-!
# Timers kept by the host

The host owns the real timers. Requests to set and to cancel them queue up until the host takes
them; the host reports a due timer by its number.
-/

namespace PuzzlePlayback

/-- An instruction to the host. -/
inductive HostRequest
  | set (id : TimerNumber) (delayMs : Nat)
  | cancel (id : TimerNumber)
deriving DecidableEq

/-- The requests that the host has not taken, the oldest first. -/
structure RequestQueue where
  lastId : TimerNumber
  requests : List HostRequest
deriving DecidableEq

namespace RequestQueue

/-- No timers and no requests. -/
def empty : RequestQueue := ⟨0, []⟩

/-- The longest delay that a request can hold; a longer one is cut to it. -/
def maxDelay : Nat := UInt64.size - 1

/-- Ask for a timer. -/
def set (timers : RequestQueue) (delay : Nat) : TimerNumber × RequestQueue :=
  let id := timers.lastId + 1
  (id, ⟨id, timers.requests ++ [.set id (min delay maxDelay)]⟩)

/-- Ask for a timer to be cancelled. -/
def cancel (timers : RequestQueue) (id : TimerNumber) : RequestQueue :=
  { timers with requests := timers.requests ++ [.cancel id] }

instance : TimerSource RequestQueue := ⟨set, cancel⟩

/-- Hand the requests over to the host. -/
def handOver (timers : RequestQueue) : List HostRequest × RequestQueue :=
  (timers.requests, { timers with requests := [] })

end RequestQueue

end PuzzlePlayback
