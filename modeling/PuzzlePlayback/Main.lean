import PuzzlePlayback.CommandLine.Run

/-!
# Entry point

Reads the files that the arguments name, runs the program and prints its lines. Without an hour
among the arguments completion codes are salted with midnight.
-/

namespace PuzzlePlayback.CommandLine

/-- The text of a file that can be read. -/
def readText (path : String) : IO (Option String) := do
  try
    return some (← IO.FS.readFile path)
  catch _ =>
    return none

/-- The files named by the arguments, with their texts. -/
def readFiles (arguments : List String) : IO (List (String × Option String)) :=
  match Options.ofArguments arguments with
  | .error _ => return []
  | .ok options =>
    (options.level :: options.program :: options.settings.toList).mapM fun path =>
      return (path, ← readText path)

end PuzzlePlayback.CommandLine

open PuzzlePlayback.CommandLine in
def main (arguments : List String) : IO UInt32 := do
  let files ← readFiles arguments
  let output := execute arguments (fun path => (files.lookup path).join) 0
  for line in output.lines do
    IO.println line
  if output.exit = 2 then
    IO.eprintln "usage: blocklab [OPTIONS] --level <FILE> --program <FILE>"
  return output.exit.toUInt32
