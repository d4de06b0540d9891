import PuzzlePlayback.Json.Decode
import PuzzlePlayback.Json.Reader
import PuzzlePlayback.Json.Writer
import PuzzlePlayback.Preferences

/-!
# The JSON form of preferences

Preferences are stored as a record whose fields all have defaults. A file that cannot be read
counts as absent.
-/

namespace PuzzlePlayback.Preferences

open Json

def toJson (preferences : Preferences) : Json :=
  .object [("speed", .ofNat preferences.speed.toNat),
    ("showReference", .bool preferences.showReference)]

def ofJson? (json : Json) : Option Preferences := do
  let [speed, showReference] ← json.slots ["speed", "showReference"] | none
  return ⟨← defaulted default.speed asUInt8? speed,
    ← defaulted default.showReference asBool? showReference⟩

/-- The preferences of a file, of which the text is given if it exists. -/
def ofFile (file : Option String) : Preferences :=
  ((file.bind Json.read).bind ofJson?).getD default

/-- The text of a preferences file. -/
def toText (preferences : Preferences) : String := preferences.toJson.pretty

end PuzzlePlayback.Preferences
