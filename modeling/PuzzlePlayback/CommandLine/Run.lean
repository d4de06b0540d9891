import PuzzlePlayback.CommandLine.Arguments
import PuzzlePlayback.Player.Operations
import PuzzlePlayback.Format.Event
import PuzzlePlayback.Format.Program
import PuzzlePlayback.Format.Preferences

/-!
# The command line program

Plays a program against a puzzle on a manual clock and prints the outcome. The program ends with
code 0, with 2 if its arguments are wrong, and with 1 after any other error; what was printed
before an error stays.
-/

namespace PuzzlePlayback.CommandLine

/-- What the program prints, and the code it ends with. -/
structure Output where
  exit : UInt8
  lines : List String

def versionLine : String := "blocklab 0.1.0"

def helpLines : List String :=
  ["Headless action-replay runner for block puzzles",
    "",
    "Usage: blocklab [OPTIONS] --level <FILE> --program <FILE>",
    "",
    "Options:",
    "  -l, --level <FILE>     Level definition (JSON)",
    "  -p, --program <FILE>   Compiled program: an action array or `\x7b \"actions\", \"blockCount\" \x7d`",
    "      --speed <SPEED>    Playback speed, 0-100",
    "      --preset <PRESET>  Named speed (slow, normal, fast, instant)",
    "      --settings <FILE>  Settings file to start from",
    "      --goto <STEP>      Stop at this step and print the rebuilt view instead of playing",
    "      --trace            Print every engine event with its virtual timestamp",
    "      --hour <HOUR>      Salt completion codes with this hour instead of the local clock",
    "  -h, --help             Print help",
    "  -V, --version          Print version"]

/-- What is printed instead of playing. -/
def Stop.output : Stop → Output
  | .usage => ⟨2, []⟩
  | .help => ⟨0, helpLines⟩
  | .version => ⟨0, [versionLine]⟩

/-- The preferences that the options ask for; `file` is the text of the preferences file. -/
def Options.playback (options : Options) (file : Option String) : Preferences :=
  let stored := match options.settings with
    | some _ => Preferences.ofFile file
    | none => .default
  let chosen := match options.preset with
    | some preset => stored.withPace preset
    | none => stored
  match options.speed with
  | some speed => { chosen with speed }
  | none => chosen

/-- A number at the right of at least `width` columns. -/
def rightAligned (width n : Nat) : String :=
  let digits := toString n
  String.ofList (List.replicate (width - digits.length) ' ') ++ digits

/-- The lines of events that happened at a time. -/
def traceLines (now : Nat) (events : List Event) : List String :=
  events.map fun event => "[" ++ rightAligned 6 now ++ "ms] " ++ event.toJson.compact

/-- The lines of the final outcome, or of the status of a run without one. -/
def outcomeLines (p : Player ManualClock) : List String :=
  match p.outcome with
  | some outcome => outcome.toJson.lines
  | none => ["\x7b\"status\":\"" ++ p.status.name ++ "\"\x7d"]

/-- Deliver up to `n` timers and print what happens after each; `printed` are the lines so far,
the last one first. -/
def playTraced (trace : Bool) : Nat → Player ManualClock → List String → Output
  | 0, p, printed => ⟨0, printed.reverse ++ outcomeLines p⟩
  | n + 1, p, printed =>
    match p.deliverNext with
    | none => ⟨0, printed.reverse ++ outcomeLines p⟩
    | some (_, reply) =>
      match reply.error with
      | some _ => ⟨1, printed.reverse⟩
      | none =>
        let (events, p) := reply.player.takeEvents
        let lines := if trace then traceLines p.timers.now events else []
        playTraced trace n p (lines.reverse ++ printed)

/-- Play to the end, or up to the step to stop at. -/
def play (options : Options) (p : Player ManualClock) : Output :=
  let reply := p.play
  if reply.error.isSome then ⟨1, []⟩
  else
    match options.goto with
    | some step =>
      let reply := reply.player.travelTo step
      if reply.error.isSome then ⟨1, []⟩ else ⟨0, reply.player.display.lines⟩
    | none =>
      let (events, p) := reply.player.takeEvents
      let lines := if options.trace then traceLines p.timers.now events else []
      playTraced options.trace p.deliveryBound p lines.reverse

/-- Play what the options ask for. `read` gives the text of a file, and `hour` is the hour of the
day. -/
def perform (options : Options) (read : String → Option String) (hour : Nat) : Output :=
  let loaded : Option (Puzzle × Program) := do
    let puzzle ← ((← read options.level) |> Json.read).bind Puzzle.ofJson?
    let program ← (Program.ofText (← read options.program)).toOption
    return (puzzle, program)
  match loaded with
  | none => ⟨1, []⟩
  | some (puzzle, program) =>
    match Player.create .standard puzzle (.always program) ManualClock.atZero
        (options.playback (options.settings.bind read)) (fun _ => options.hour.getD hour) with
    | .error _ => ⟨1, []⟩
    | .ok p => play options p

/-- The whole program. -/
def execute (arguments : List String) (read : String → Option String) (hour : Nat) : Output :=
  match Options.ofArguments arguments with
  | .error stop => stop.output
  | .ok options => perform options read hour

end PuzzlePlayback.CommandLine
