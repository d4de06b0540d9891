import PuzzlePlayback.Json.Decode
import PuzzlePlayback.Rating

/-!
# The JSON form of outcomes

An outcome is a record; the completion code is left out when there is none.
-/

namespace PuzzlePlayback

open Json

def Status.ofName? (name : String) : Option Status :=
  Status.all.find? fun status => status.name == name

def Status.ofJson? (json : Json) : Option Status := (json.asName? isNull).bind ofName?

namespace Outcome

def toJson (outcome : Outcome) : Json :=
  .object ([("status", .string outcome.status.name), ("stars", .ofNat outcome.stars.toNat),
    ("blockCount", .ofNat outcome.blockCount.toNat), ("target", .ofNat outcome.par.toNat)] ++
    optionalField "proofToken" .string outcome.code)

def ofJson? (json : Json) : Option Outcome := do
  let [status, stars, blockCount, par, code] ←
    json.slots ["status", "stars", "blockCount", "target", "proofToken"] | none
  return {
    status := ← required Status.ofJson? status
    stars := ← required asUInt8? stars
    blockCount := ← required asUInt32? blockCount
    par := ← required asUInt32? par
    code := ← optional asString? code }

end Outcome

end PuzzlePlayback
