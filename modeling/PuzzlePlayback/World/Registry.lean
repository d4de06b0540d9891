import PuzzlePlayback.World.Drawing
import PuzzlePlayback.World.Walk
import PuzzlePlayback.World.Sandbox
import PuzzlePlayback.World.Solver

/-!
# The rules on offer

A registry holds the rules of a mode at most once. The four modes of this library are in
`Registry.standard`.
-/

namespace PuzzlePlayback

/-- The rules of a mode of this library. -/
def Rules.ofMode : Mode → Rules
  | .maze => Walk.rules
  | .turtle => Drawing.rules
  | .math => Sandbox.rules
  | .equation => Solver.rules

/-- Rules by mode. -/
structure Registry where
  find : Mode → Option Rules

namespace Registry

def empty : Registry := ⟨fun _ => none⟩

/-- Offer rules for their mode, in place of earlier ones. -/
def offer (registry : Registry) (rules : Rules) : Registry :=
  ⟨fun mode => if mode = rules.mode then some rules else registry.find mode⟩

/-- The modes on offer, in the order of `Mode.all`. -/
def modes (registry : Registry) : List Mode :=
  Mode.all.filter fun mode => (registry.find mode).isSome

/-- A registry of the rules of this library for some modes. -/
def ofModes (modes : List Mode) : Registry :=
  modes.foldl (fun registry mode => registry.offer (.ofMode mode)) empty

/-- All four modes of the library. -/
def standard : Registry := ofModes Mode.all

end Registry

end PuzzlePlayback
