/-!
# Completion codes

A solved puzzle yields the code `LVL:<id>|ST:<stars>|BL:<blocks>|#<hex>`. The part after the mark
`|#` is a rolling hash of the readable part followed by the hour of the day. It deters casual
editing; whoever knows the scheme can write valid codes.
-/

namespace PuzzlePlayback

/-- `h * 31 + byte` over all bytes, wrapping around at 32 bits. -/
def rollingHash (bytes : List UInt8) : Int32 :=
  bytes.foldl (fun h byte => h * 31 + Int32.ofNat byte.toNat) 0

/-- The bytes of a text in UTF-8. -/
def bytesOf (text : String) : List UInt8 := text.toUTF8.data.toList

/-- A number in lower-case hexadecimal, without leading zeros. -/
def hexadecimal (n : Nat) : String := String.ofList (Nat.toDigits 16 n)

/-- The checked part of a code. -/
def checksum (raw : String) (hour : Nat) : String :=
  hexadecimal (rollingHash (bytesOf (raw ++ toString hour))).toInt.natAbs

/-- The readable part of a code. -/
def readablePart (puzzleId : String) (stars : UInt8) (blocks : UInt32) : String :=
  "LVL:" ++ puzzleId ++ "|ST:" ++ toString stars.toNat ++ "|BL:" ++ toString blocks.toNat

/-- The code of a puzzle solved at an hour of the day. -/
def completionCode (puzzleId : String) (stars : UInt8) (blocks : UInt32) (hour : Nat) : String :=
  let raw := readablePart puzzleId stars blocks
  raw ++ "|#" ++ checksum raw hour

/-- Cut at the last mark. -/
def splitAtLastMark : List Char → Option (List Char × List Char)
  | [] => none
  | '|' :: '#' :: cs =>
    match splitAtLastMark cs with
    | some (raw, suffix) => some ('|' :: '#' :: raw, suffix)
    | none => some ([], cs)
  | c :: cs => (splitAtLastMark cs).map fun parts => (c :: parts.1, parts.2)

/-- Does the part after the last mark of a code check the part before it? -/
def isCompletionCode (token : String) (hour : Nat) : Bool :=
  match splitAtLastMark token.toList with
  | some (raw, suffix) => checksum (String.ofList raw) hour == String.ofList suffix
  | none => false

end PuzzlePlayback
