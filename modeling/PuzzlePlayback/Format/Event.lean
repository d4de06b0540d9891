import PuzzlePlayback.Player.Basic
import PuzzlePlayback.Format.Rating
import PuzzlePlayback.Format.World
import PuzzlePlayback.Timers.RequestQueue

/-!
# The JSON form of events and displays

What a host is told: events as they happen, requests for timers, and the display of the player.
-/

namespace PuzzlePlayback

def Event.toJson : Event → Json
  | .started size =>
    .object [("event", .string "started"), ("totalSteps", .ofNat size)]
  | .stepped step action =>
    .object [("event", .string "stepped"), ("step", .ofNat step), ("action", .ofNat action)]
  | .paused step => .object [("event", .string "paused"), ("step", .ofNat step)]
  | .resumed step => .object [("event", .string "resumed"), ("step", .ofNat step)]
  | .reset => .object [("event", .string "reset")]
  | .cleared => .object [("event", .string "cleared")]
  | .traveled step => .object [("event", .string "traveled"), ("step", .ofNat step)]
  | .settled outcome => .object [("event", .string "settled"), ("outcome", outcome.toJson)]
  | .faulted step message =>
    .object [("event", .string "faulted"), ("step", .ofNat step), ("message", .string message)]

def HostRequest.toJson : HostRequest → Json
  | .set id delayMs =>
    .object [("kind", .string "schedule"), ("id", .ofNat id), ("delayMs", .ofNat delayMs)]
  | .cancel id => .object [("kind", .string "cancel"), ("id", .ofNat id)]

def Reference.toJson (reference : Reference) : Json :=
  .object [("state", reference.state.toJson), ("steps", .ofNat reference.steps)]

namespace Player

variable {σ : Type}

/-- The reference that the learner is shown. -/
def shownReference (p : Player σ) : Option Reference :=
  if p.preferences.showReference then p.stage.reference else none

/-- What the host draws. -/
def display (p : Player σ) : Json :=
  .object ([("state", .ofOption World.toJson p.state),
    ("lastAction", .ofOption Action.toJson p.latestAction),
    ("step", .ofNat p.step), ("totalSteps", .ofNat p.programSize),
    ("status", .string p.status.name), ("outcome", .ofOption Outcome.toJson p.outcome)] ++
    Json.optionalField "reference" Reference.toJson p.shownReference)

end Player

end PuzzlePlayback
