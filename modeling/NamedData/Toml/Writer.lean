import NamedData.Text.Quoted

namespace NamedData.Toml

/-- How a string is written: with escapes or as it stands, between single marks
or between tripled ones. -/
inductive StringStyle where
  | escaped
  | escapedTripled
  | raw
  | rawTripled
  deriving DecidableEq

def isBreak (c : Char) : Bool := c = '\n'

/-- Characters that can only be written as escapes. -/
def needsEscape (c : Char) : Bool :=
  (c.toNat < 0x20 || c.toNat = 0x7F) && c != '\t' && c != '\n'

/-- The longest run of one character. -/
def longestRun (mark : Char) (text : List Char) : Nat :=
  (text.foldl (fun (best, current) c =>
    if c = mark then (max best (current + 1), current + 1) else (best, 0)) (0, 0)).1

/-- The first style in which the string stands unchanged: single marks before
tripled ones, and of two of a size the double quotes before the single ones.
A raw string takes any backslash, tripled marks take breaks and up to two of
their own quotes in a row. Where nothing fits the string is escaped. -/
def chooseStyle (text : List Char) : StringStyle :=
  let broken := text.any isBreak
  let canBeRaw := !text.any needsEscape
  let standsPlain := canBeRaw && !text.contains '\\'
  let doubles := longestRun '"' text
  let singles := longestRun '\'' text
  if standsPlain && doubles = 0 && !broken then .escaped
  else if canBeRaw && singles = 0 && !broken then .raw
  else if standsPlain && doubles ≤ 2 then .escapedTripled
  else if canBeRaw && singles ≤ 2 then .rawTripled
  else if broken then .escapedTripled
  else .escaped

def escapedChar (keepBreaks : Bool) (c : Char) : List Char :=
  match c with
  | '\x08' => ['\\', 'b']
  | '\t' => ['\\', 't']
  | '\n' => if keepBreaks then ['\n'] else ['\\', 'n']
  | '\x0c' => ['\\', 'f']
  | '\r' => ['\\', 'r']
  | '\\' => ['\\', '\\']
  | c =>
    if c.toNat < 0x20 || c.toNat = 0x7F then
      ['\\', 'u'] ++ (Text.lowerHex 4 c.toNat).map Char.toUpper
    else [c]

/-- Between single marks every quote is escaped. Between tripled ones breaks
stay, and of the quotes in a row, `run` of which are already written, every
third is escaped. -/
def escapedText (tripled : Bool) : Nat → List Char → List Char
  | _, [] => []
  | run, c :: rest =>
    if c = '"' then
      if tripled && run < 2 then '"' :: escapedText tripled (run + 1) rest
      else '\\' :: '"' :: escapedText tripled 0 rest
    else escapedChar tripled c ++ escapedText tripled 0 rest

/-- Quotes in a row are counted by a byte, and a string with a longer row is
not written. -/
def isWritable (text : String) : Bool :=
  longestRun '"' text.toList ≤ 255 && longestRun '\'' text.toList ≤ 255

/-- Between tripled marks a text with breaks starts on a line of its own. -/
def stringText (text : String) : String :=
  let chars := text.toList
  let opening := if chars.any isBreak then ['\n'] else []
  let basic := ['"', '"', '"']
  let literal := ['\'', '\'', '\'']
  String.ofList <|
    match chooseStyle chars with
    | .escaped => ['"'] ++ escapedText false 0 chars ++ ['"']
    | .escapedTripled => basic ++ opening ++ escapedText true 0 chars ++ basic
    | .raw => ['\''] ++ chars ++ ['\'']
    | .rawTripled => literal ++ opening ++ chars ++ literal

/-- Whole numbers have 64 bits, one of them for the sign. -/
def numberText? (value : Nat) : Option String :=
  if value ≤ 9223372036854775807 then some (toString value) else none

def lineText (key value : String) : String := key ++ " = " ++ value ++ "\n"

end NamedData.Toml
