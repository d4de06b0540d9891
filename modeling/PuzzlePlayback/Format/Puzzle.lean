import PuzzlePlayback.Format.Program
import PuzzlePlayback.Puzzle

/-!
# The JSON form of puzzles

A puzzle is a record of which only the mode, under `type`, has to be given. Of the two fields that
say what a target is compared with, the one that comes first in the text counts.
-/

namespace PuzzlePlayback

open Json

/-- The memory mode has a second name. -/
def Mode.ofName? : String → Option Mode
  | "maze" => some .maze
  | "turtle" => some .turtle
  | "math" | "memory" => some .math
  | "equation" => some .equation
  | _ => none

def Mode.ofJson? (json : Json) : Option Mode := (json.asName? isNull).bind ofName?

def StartPose.ofJson? (json : Json) : Option StartPose := do
  let [x, y, dir] ← json.slots ["x", "y", "dir"] | none
  return ⟨← required asFloat? x, ← required asFloat? y, ← defaulted 0.0 asFloat? dir⟩

def PaperSize.ofJson? (json : Json) : Option PaperSize := do
  let [width, height] ← json.slots ["width", "height"] | none
  return ⟨← required asUInt32? width, ← required asUInt32? height⟩

def AuthoredEquation.ofJson? (json : Json) : Option AuthoredEquation := do
  let [lhs, rhs, unknown, sign, implicit] ←
    json.slots ["lhs", "rhs", "variable", "sign", "implicit"] | none
  return {
    lhs := ← required asString? lhs
    rhs := ← required asString? rhs
    unknown := ← defaulted "x" asString? unknown
    sign := ← defaulted "=" asString? sign
    implicit := ← defaulted true asBool? implicit }

/-- What the first of the fields `value` and `variable` says. -/
def Expectation.ofFields? : List (String × Json) → Option Expectation
  | [] => none
  | ("value", json) :: _ => (Value.ofJson? json).map .value
  | ("variable", json) :: _ => json.asString?.map .sameAs
  | _ :: fields => ofFields? fields

def Target.ofJson? : Json → Option Target
  | .object fields => do
    guard (fieldsReadable fields)
    let var ← required asString? (← uniqueField fields "var")
    return ⟨var, ← Expectation.ofFields? fields⟩
  | _ => none

/-- Variables by name; of repeated names the last one counts. -/
def bindingsOfJson? : Json → Option (SortedMap String Value)
  | .object fields => do
    let entries ← fields.mapM fun field => do return (field.1, ← Value.ofJson? field.2)
    return .ofList entries
  | _ => none

namespace Puzzle

/-- The fields of a puzzle, in order. -/
def fieldNames : List String :=
  ["id", "type", "grid", "startPos", "allowedBlocks", "inputs", "hiddenVars", "lockedVars",
    "targets", "maxBlocks", "equation", "canvas", "solution"]

def ofJson? (json : Json) : Option Puzzle := do
  let [id, mode, grid, start, allowedBlocks, inputs, hiddenVars, lockedVars, targets, givenPar,
    equation, paperSize, solution] ← json.slots fieldNames | none
  return {
    id := ← defaulted "" asString? id
    mode := ← required Mode.ofJson? mode
    grid := ← defaulted [] (asList? (asList? asUInt8?)) grid
    start := ← optional StartPose.ofJson? start
    allowedBlocks := ← defaulted [] (asList? asString?) allowedBlocks
    inputs := ← defaulted .empty bindingsOfJson? inputs
    hiddenVars := ← defaulted [] (asList? asString?) hiddenVars
    lockedVars := ← defaulted [] (asList? asString?) lockedVars
    targets := ← defaulted [] (asList? Target.ofJson?) targets
    givenPar := ← optional asUInt32? givenPar
    equation := ← optional AuthoredEquation.ofJson? equation
    paperSize := ← optional PaperSize.ofJson? paperSize
    solution := ← defaulted [] (asList? Action.ofJson?) solution }

end Puzzle

end PuzzlePlayback
