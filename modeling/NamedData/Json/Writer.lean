import NamedData.Binary64.Decimal
import NamedData.Document
import NamedData.Text.Quoted

namespace NamedData.Json

def escapedChar (c : Char) : List Char :=
  match c with
  | '"' => ['\\', '"']
  | '\\' => ['\\', '\\']
  | '\x08' => ['\\', 'b']
  | '\x0c' => ['\\', 'f']
  | '\n' => ['\\', 'n']
  | '\r' => ['\\', 'r']
  | '\t' => ['\\', 't']
  | c => if c.toNat < 0x20 then ['\\', 'u'] ++ Text.lowerHex 4 c.toNat else [c]

def stringText (text : String) : String :=
  String.ofList ('"' :: text.toList.flatMap escapedChar ++ ['"'])

/-- Numbers that JSON has no notation for are written as null. -/
def floatText (value : Binary64) : String :=
  if value.isFinite then value.shortestText else "null"

def joined (separator : String) (parts : List String) : String :=
  String.intercalate separator parts

mutual

/-- Writes a value without any blanks. -/
def compact : Document → String
  | .null => "null"
  | .boolean value => if value then "true" else "false"
  | .integer value => toString value
  | .float value => floatText value
  | .text value => stringText value
  | .moment => "null"
  | .unreadable => "null"
  | .sequence items => "[" ++ joined "," (compactItems items) ++ "]"
  | .table entries => "\x7b" ++ joined "," (compactEntries entries) ++ "\x7d"

def compactItems : List Document → List String
  | [] => []
  | item :: rest => compact item :: compactItems rest

def compactEntries : List (String × Document) → List String
  | [] => []
  | (key, value) :: rest => (stringText key ++ ":" ++ compact value) :: compactEntries rest

end

def lineBreak (depth : Nat) : String :=
  "\n" ++ String.ofList (List.replicate (2 * depth) ' ')

/-- Puts parts on lines of their own between brackets. No parts need no
lines. -/
def bracketed (opening closing : String) (depth : Nat) (parts : List String) : String :=
  if parts.isEmpty then opening ++ closing
  else
    opening ++ lineBreak (depth + 1) ++ joined ("," ++ lineBreak (depth + 1)) parts ++
      lineBreak depth ++ closing

mutual

/-- Writes a value over several lines, each level two blanks further in. -/
def pretty (depth : Nat) : Document → String
  | .null => "null"
  | .boolean value => if value then "true" else "false"
  | .integer value => toString value
  | .float value => floatText value
  | .text value => stringText value
  | .moment => "null"
  | .unreadable => "null"
  | .sequence items => bracketed "[" "]" depth (prettyItems (depth + 1) items)
  | .table entries => bracketed "\x7b" "\x7d" depth (prettyEntries (depth + 1) entries)

def prettyItems (depth : Nat) : List Document → List String
  | [] => []
  | item :: rest => pretty depth item :: prettyItems depth rest

def prettyEntries (depth : Nat) : List (String × Document) → List String
  | [] => []
  | (key, value) :: rest =>
    (stringText key ++ ": " ++ pretty depth value) :: prettyEntries depth rest

end

end NamedData.Json
