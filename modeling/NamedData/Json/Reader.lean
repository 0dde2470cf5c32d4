import NamedData.Json.Number

namespace NamedData.Json

def isBlank (c : Char) : Bool := c = ' ' || c = '\n' || c = '\t' || c = '\r'

def skipBlanks (text : List Char) : List Char := text.dropWhile isBlank

/-- A piece of a string as written: a character, or a 16-bit unit given by its
number. -/
inductive Unit16 where
  | plain (c : Char)
  | unit (value : Nat)

def hexDigitValue? (c : Char) : Option Nat :=
  if '0' ≤ c ∧ c ≤ '9' then some (c.toNat - '0'.toNat)
  else if 'a' ≤ c ∧ c ≤ 'f' then some (c.toNat - 'a'.toNat + 10)
  else if 'A' ≤ c ∧ c ≤ 'F' then some (c.toNat - 'A'.toNat + 10)
  else none

def hexValue? (digits : List Char) : Option Nat :=
  digits.foldlM (fun value digit => (hexDigitValue? digit).map (value * 16 + ·)) 0

def plainEscape? : Char → Option Char
  | '"' => some '"'
  | '\\' => some '\\'
  | '/' => some '/'
  | 'b' => some '\x08'
  | 'f' => some '\x0c'
  | 'n' => some '\n'
  | 'r' => some '\r'
  | 't' => some '\t'
  | _ => none

/-- The pieces of a string up to its closing quote, and the rest. Control
characters have to be escaped. -/
def readPieces? : List Char → Option (List Unit16 × List Char)
  | '"' :: rest => some ([], rest)
  | '\\' :: 'u' :: a :: b :: c :: d :: rest =>
    match hexValue? [a, b, c, d] with
    | some value => (readPieces? rest).map fun (pieces, rest) => (.unit value :: pieces, rest)
    | none => none
  | '\\' :: mark :: rest =>
    match plainEscape? mark with
    | some c => (readPieces? rest).map fun (pieces, rest) => (.plain c :: pieces, rest)
    | none => none
  | c :: rest =>
    if c.toNat < 0x20 ∨ c = '\\' then none
    else (readPieces? rest).map fun (pieces, rest) => (.plain c :: pieces, rest)
  | [] => none

/-- Joins surrogate pairs. A half without its partner makes no text. -/
def joinPieces? : List Unit16 → Option (List Char)
  | [] => some []
  | .plain c :: rest => (joinPieces? rest).map (c :: ·)
  | .unit high :: rest =>
    if 0xD800 ≤ high ∧ high < 0xDC00 then
      match rest with
      | .unit low :: rest =>
        if 0xDC00 ≤ low ∧ low < 0xE000 then
          let scalar := 0x10000 + (high - 0xD800) * 0x400 + (low - 0xDC00)
          (joinPieces? rest).map (Char.ofNat scalar :: ·)
        else none
      | _ => none
    else if 0xDC00 ≤ high ∧ high < 0xE000 then none
    else (joinPieces? rest).map (Char.ofNat high :: ·)

/-- A string after its opening quote: its text, if it has one, and the rest. -/
def readString? (text : List Char) : Option (Option String × List Char) :=
  (readPieces? text).map fun (pieces, rest) => ((joinPieces? pieces).map String.ofList, rest)

def readWord? (word : String) (value : Document) (text : List Char) :
    Option (Document × List Char) :=
  if word.toList.isPrefixOf text then some (value, text.drop word.length) else none

/-- What reads one value off the front of a text. -/
abbrev ValueReader := List Char → Option (Document × List Char)

/-- The items of an array after its opening bracket, one at least. The bound is
the length of the text, which every item shortens. -/
def readItems? (read : ValueReader) : Nat → List Char → Option (List Document × List Char)
  | 0, _ => none
  | bound + 1, text => do
    let (item, text) ← read (skipBlanks text)
    match skipBlanks text with
    | ',' :: text =>
      let (items, text) ← readItems? read bound text
      some (item :: items, text)
    | ']' :: text => some ([item], text)
    | _ => none

/-- The members of an object after its opening brace, one at least. -/
def readMembers? (read : ValueReader) :
    Nat → List Char → Option (List (Option String × Document) × List Char)
  | 0, _ => none
  | bound + 1, text =>
    match skipBlanks text with
    | '"' :: text => do
      let (key, text) ← readString? text
      match skipBlanks text with
      | ':' :: text =>
        let (value, text) ← read (skipBlanks text)
        match skipBlanks text with
        | ',' :: text =>
          let (members, text) ← readMembers? read bound text
          some ((key, value) :: members, text)
        | '\x7d' :: text => some ([(key, value)], text)
        | _ => none
      | _ => none
    | _ => none

/-- An object is unreadable as a whole when one of its names is. -/
def tableOf (members : List (Option String × Document)) : Document :=
  match members.mapM fun (key, value) => key.map (·, value) with
  | some entries => .table entries
  | none => .unreadable

/-- Reads one value, nested no deeper than the given bound. -/
def readValue? : Nat → ValueReader
  | 0, _ => none
  | depth + 1, text =>
    match text with
    | 'n' :: _ => readWord? "null" .null text
    | 't' :: _ => readWord? "true" (.boolean true) text
    | 'f' :: _ => readWord? "false" (.boolean false) text
    | '"' :: text =>
      (readString? text).map fun (value, rest) =>
        (match value with
          | some value => .text value
          | none => .unreadable, rest)
    | '[' :: text =>
      match skipBlanks text with
      | ']' :: rest => some (.sequence [], rest)
      | text =>
        (readItems? (readValue? depth) (text.length + 1) text).map fun (items, rest) =>
          (.sequence items, rest)
    | '\x7b' :: text =>
      match skipBlanks text with
      | '\x7d' :: rest => some (.table [], rest)
      | text =>
        (readMembers? (readValue? depth) (text.length + 1) text).map fun (members, rest) =>
          (tableOf members, rest)
    | text => (readNumberText? text).map fun (number, rest) => (number.value, rest)

/-- Reads a whole text as one value with blanks around it. -/
def ofText? (text : String) : Option Document :=
  let chars := skipBlanks text.toList
  match readValue? (chars.length + 1) chars with
  | some (document, rest) => if (skipBlanks rest).isEmpty then some document else none
  | none => none

end NamedData.Json
