import PuzzlePlayback.Decimal.Numeral
import PuzzlePlayback.Preferences

/-!
# Arguments of the command line

Options may be given as `--name value`, `--name=value`, `-n value`, `-nvalue` or `-n=value`, each
at most once. Arguments are read from left to right, and the first one that asks for help, asks
for the version or is wrong decides. What is missing or conflicts is found only after that.
-/

namespace PuzzlePlayback.CommandLine

/-- The options of the program. -/
inductive Flag
  | level
  | program
  | speed
  | preset
  | settings
  | goto
  | trace
  | hour
  | help
  | version
deriving DecidableEq

namespace Flag

def ofName? : String → Option Flag
  | "level" => some .level
  | "program" => some .program
  | "speed" => some .speed
  | "preset" => some .preset
  | "settings" => some .settings
  | "goto" => some .goto
  | "trace" => some .trace
  | "hour" => some .hour
  | "help" => some .help
  | "version" => some .version
  | _ => none

def ofLetter? : Char → Option Flag
  | 'l' => some .level
  | 'p' => some .program
  | 'h' => some .help
  | 'V' => some .version
  | _ => none

/-- Is the option followed by a value? -/
def takesValue : Flag → Bool
  | .trace | .help | .version => false
  | _ => true

end Flag

/-- Why the arguments are not played. -/
inductive Stop
  | usage
  | help
  | version
deriving DecidableEq

/-- The options seen so far. -/
structure Draft where
  level : Option String
  program : Option String
  speed : Option UInt8
  preset : Option Pace
  settings : Option String
  goto : Option Nat
  trace : Bool
  hour : Option Nat

/-- No options. -/
def Draft.empty : Draft := ⟨none, none, none, none, none, none, false, none⟩

/-- What is to be played. -/
structure Options where
  level : String
  program : String
  speed : Option UInt8
  preset : Option Pace
  settings : Option String
  /-- The step to stop at. -/
  goto : Option Nat
  /-- Is every event printed? -/
  trace : Bool
  /-- The hour that completion codes are salted with. -/
  hour : Option Nat

/-! ## Values -/

/-- A whole number from 0 to `high`, with a plus sign if `signed` is off, with either sign else. -/
def number? (high : Nat) (signed : Bool) (text : String) : Option Nat :=
  let (negative, digits) := Decimal.splitSign text.toList
  if digits.isEmpty || !digits.all Char.isDigit then none
  else
    let n := Decimal.digitsValue digits
    if negative then if signed && n == 0 then some 0 else none
    else if n ≤ high then some n else none

/-- The name of a file is not empty. -/
def path? (text : String) : Option String := if text.isEmpty then none else some text

/-- Store a value, unless there is one or it cannot be read. -/
def once {α : Type} (present : Option α) (value : Option α) : Except Stop (Option α) :=
  match present, value with
  | none, some a => .ok (some a)
  | _, _ => .error .usage

/-- Store the value of an option. -/
def Draft.put (draft : Draft) (flag : Flag) (value : String) : Except Stop Draft := do
  match flag with
  | .level => return { draft with level := ← once draft.level (path? value) }
  | .program => return { draft with program := ← once draft.program (path? value) }
  | .speed =>
    return { draft with speed := ← once draft.speed ((number? 100 true value).map UInt8.ofNat) }
  | .preset => return { draft with preset := ← once draft.preset (Pace.ofName? value) }
  | .settings => return { draft with settings := ← once draft.settings (path? value) }
  | .goto => return { draft with goto := ← once draft.goto (number? (UInt64.size - 1) false value) }
  | .hour => return { draft with hour := ← once draft.hour (number? 23 true value) }
  | _ => throw .usage

/-- Note an option without a value. -/
def Draft.mark (draft : Draft) : Flag → Except Stop Draft
  | .trace => if draft.trace then .error .usage else .ok { draft with trace := true }
  | .help => .error .help
  | .version => .error .version
  | _ => .error .usage

/-! ## Arguments -/

/-- Read the letters after a single dash. A letter that takes a value takes the rest; it is
returned with what was attached to it. -/
def Draft.letters (draft : Draft) :
    List Char → Except Stop (Draft × Option (Flag × Option String))
  | [] => .ok (draft, none)
  | c :: cs =>
    match Flag.ofLetter? c with
    | none => .error .usage
    | some flag =>
      if flag.takesValue then
        let value := match cs with
          | [] => none
          | '=' :: cs => some (String.ofList cs)
          | cs => some (String.ofList cs)
        .ok (draft, some (flag, value))
      else do (← draft.mark flag).letters cs

/-- Read what follows a double dash. -/
def Draft.long (draft : Draft) (cs : List Char) :
    Except Stop (Draft × Option (Flag × Option String)) :=
  let value := match cs.dropWhile (· ≠ '=') with
    | [] => none
    | _ :: value => some (String.ofList value)
  match Flag.ofName? (String.ofList (cs.takeWhile (· ≠ '='))) with
  | none => .error .usage
  | some flag =>
    if flag.takesValue then .ok (draft, some (flag, value))
    else if value.isSome then .error .usage
    else (draft.mark flag).map (·, none)

/-- Read an argument that starts with a dash and is longer than one. Others do not belong here. -/
def Draft.argument (draft : Draft) (argument : String) :
    Except Stop (Draft × Option (Flag × Option String)) :=
  match argument.toList with
  | '-' :: '-' :: cs => draft.long cs
  | '-' :: c :: cs => draft.letters (c :: cs)
  | _ => .error .usage

/-- Can an argument be the value of the option before it? -/
def isValue (argument : String) : Bool :=
  match argument.toList with
  | '-' :: _ :: _ => false
  | _ => true

/-- Read all arguments. -/
def Draft.read (draft : Draft) : List String → Except Stop Draft
  | [] => .ok draft
  | ["--"] => .ok draft
  | argument :: arguments => do
    let (draft, last) ← draft.argument argument
    match last with
    | none => draft.read arguments
    | some (flag, some value) => (← draft.put flag value).read arguments
    | some (flag, none) =>
      match arguments with
      | value :: arguments =>
        if isValue value then (← draft.put flag value).read arguments else throw .usage
      | [] => throw .usage

/-- A puzzle and a program are needed, and the speed is given in one way. -/
def Draft.finish (draft : Draft) : Except Stop Options := do
  let some level := draft.level | throw .usage
  let some program := draft.program | throw .usage
  if draft.speed.isSome && draft.preset.isSome then throw .usage
  return {
    level
    program
    speed := draft.speed
    preset := draft.preset
    settings := draft.settings
    goto := draft.goto
    trace := draft.trace
    hour := draft.hour }

/-- What the arguments ask for. -/
def Options.ofArguments (arguments : List String) : Except Stop Options := do
  (← Draft.empty.read arguments).finish

end PuzzlePlayback.CommandLine
