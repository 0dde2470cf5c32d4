import NamedData.Json.Reader

namespace NamedData.Toml

open Json (spanDigits digitValue hexValue? hexDigitValue?)

def isBlank (c : Char) : Bool := c = ' ' || c = '\t'

def skipBlanks (text : List Char) : List Char := text.dropWhile isBlank

/-- A carriage return before a line feed counts for nothing anywhere. -/
def dropReturns : List Char → List Char
  | '\r' :: '\n' :: rest => '\n' :: dropReturns rest
  | c :: rest => c :: dropReturns rest
  | [] => []

/-- Characters that comments and strings may hold as they are, quotes and
backslashes aside. -/
def isPlain (c : Char) : Bool := c = '\t' || (0x20 ≤ c.toNat && c.toNat ≠ 0x7F)

/-- Takes a comment off the front of a text, if one is there. -/
def skipComment : List Char → List Char
  | '#' :: text => text.dropWhile isPlain
  | text => text

/-- The rest of a line may hold blanks and a comment, and nothing else. -/
def endOfLine? (text : List Char) : Option (List Char) :=
  match skipComment (skipBlanks text) with
  | [] => some []
  | '\n' :: rest => some rest
  | _ => none

/-- The character that hexadecimal digits give the number of. -/
def scalar? (digits : List Char) : Option Char :=
  match hexValue? digits with
  | some value => if value.isValidChar then some (Char.ofNat value) else none
  | none => none

/-- The character an escape stands for, after its backslash. -/
def readEscape? : List Char → Option (Char × List Char)
  | 'b' :: rest => some ('\x08', rest)
  | 't' :: rest => some ('\t', rest)
  | 'n' :: rest => some ('\n', rest)
  | 'f' :: rest => some ('\x0c', rest)
  | 'r' :: rest => some ('\r', rest)
  | '"' :: rest => some ('"', rest)
  | '\\' :: rest => some ('\\', rest)
  | 'u' :: a :: b :: c :: d :: rest => (scalar? [a, b, c, d]).map (·, rest)
  | 'U' :: a :: b :: c :: d :: e :: f :: g :: h :: rest =>
    (scalar? [a, b, c, d, e, f, g, h]).map (·, rest)
  | _ => none

/-- A string between double quotes, after the opening one. The bound is the
length of the text. -/
def readBasic? : Nat → List Char → Option (List Char × List Char)
  | 0, _ => none
  | bound + 1, text =>
    match text with
    | '"' :: rest => some ([], rest)
    | '\\' :: rest => do
      let (c, rest) ← readEscape? rest
      let (content, rest) ← readBasic? bound rest
      some (c :: content, rest)
    | c :: rest =>
      if isPlain c then (readBasic? bound rest).map fun (content, rest) => (c :: content, rest)
      else none
    | [] => none

/-- A string between single quotes, after the opening one. -/
def readLiteral? : List Char → Option (List Char × List Char)
  | '\'' :: rest => some ([], rest)
  | c :: rest =>
    if isPlain c then (readLiteral? rest).map fun (content, rest) => (c :: content, rest) else none
  | [] => none

/-- A line break right after the opening quotes is not part of the string. -/
def dropFirstNewline : List Char → List Char
  | '\n' :: text => text
  | text => text

def skipSpace (text : List Char) : List Char :=
  text.dropWhile fun c => isBlank c || c = '\n'

/-- After three quotes up to two more belong to the string, since the last three
close it. -/
def closing (quote : Char) (text : List Char) : Option (List Char × List Char) :=
  let count := (text.takeWhile (· = quote)).length
  if count < 3 then none
  else
    let kept := min (count - 3) 2
    some (List.replicate kept quote, text.drop (kept + 3))

/-- A string over several lines, after its opening quotes. A backslash at the
end of a line joins it to the next word. -/
def readLongBasic? : Nat → List Char → Option (List Char × List Char)
  | 0, _ => none
  | bound + 1, text =>
    match closing '"' text with
    | some closed => some closed
    | none =>
      match text with
      | '\\' :: rest =>
        match skipBlanks rest with
        | '\n' :: rest => readLongBasic? bound (skipSpace rest)
        | _ => do
          let (c, rest) ← readEscape? rest
          let (content, rest) ← readLongBasic? bound rest
          some (c :: content, rest)
      | c :: rest =>
        if isPlain c ∨ c = '\n' then
          (readLongBasic? bound rest).map fun (content, rest) => (c :: content, rest)
        else none
      | [] => none

/-- A literal string over several lines, after its opening quotes. -/
def readLongLiteral? : Nat → List Char → Option (List Char × List Char)
  | 0, _ => none
  | bound + 1, text =>
    match closing '\'' text with
    | some closed => some closed
    | none =>
      match text with
      | c :: rest =>
        if isPlain c ∨ c = '\n' then
          (readLongLiteral? bound rest).map fun (content, rest) => (c :: content, rest)
        else none
      | [] => none

/-- Any string, from its opening quotes on. -/
def readString? : List Char → Option (List Char × List Char)
  | '"' :: '"' :: '"' :: text =>
    readLongBasic? (text.length + 1) (dropFirstNewline text)
  | '"' :: text => readBasic? (text.length + 1) text
  | '\'' :: '\'' :: '\'' :: text =>
    readLongLiteral? (text.length + 1) (dropFirstNewline text)
  | '\'' :: text => readLiteral? text
  | _ => none

/-- Two digits that make a number within bounds. -/
def readTwoDigits? (least most : Nat) : List Char → Option (Nat × List Char)
  | a :: b :: rest =>
    let value := digitValue a * 10 + digitValue b
    if a.isDigit ∧ b.isDigit ∧ least ≤ value ∧ value ≤ most then some (value, rest) else none
  | _ => none

def daysInMonth (year month : Nat) : Nat :=
  if month = 2 then
    if year % 4 = 0 ∧ (year % 100 ≠ 0 ∨ year % 400 = 0) then 29 else 28
  else if month = 4 ∨ month = 6 ∨ month = 9 ∨ month = 11 then 30
  else 31

def skipDate? : List Char → Option (List Char)
  | a :: b :: c :: d :: '-' :: text =>
    if a.isDigit ∧ b.isDigit ∧ c.isDigit ∧ d.isDigit then
      let year := [a, b, c, d].foldl (fun value digit => value * 10 + digitValue digit) 0
      match readTwoDigits? 1 12 text with
      | some (month, '-' :: text) =>
        (readTwoDigits? 1 (daysInMonth year month) text).map fun (_, rest) => rest
      | _ => none
    else none
  | _ => none

/-- Seconds may be followed by a fraction, which needs a digit. -/
def skipFraction? : List Char → Option (List Char)
  | '.' :: text =>
    match spanDigits text with
    | ([], _) => none
    | (_, rest) => some rest
  | text => some text

def skipTime? (text : List Char) : Option (List Char) :=
  match readTwoDigits? 0 23 text with
  | some (_, ':' :: text) =>
    match readTwoDigits? 0 59 text with
    | some (_, ':' :: text) =>
      match readTwoDigits? 0 60 text with
      | some (_, text) => skipFraction? text
      | none => none
    | _ => none
  | _ => none

def skipOffset? : List Char → Option (List Char)
  | 'Z' :: text => some text
  | 'z' :: text => some text
  | sign :: text =>
    if sign = '+' ∨ sign = '-' then
      match readTwoDigits? 0 23 text with
      | some (_, ':' :: text) => (readTwoDigits? 0 59 text).map fun (_, rest) => rest
      | _ => none
    else some (sign :: text)
  | [] => some []

/-- A date, a time of day, or both with an offset. Of these only the extent is
kept. -/
def skipMoment? (text : List Char) : Option (List Char) :=
  match skipDate? text with
  | some rest =>
    match rest with
    | mark :: later =>
      if mark = 'T' ∨ mark = 't' ∨ mark = ' ' then
        match skipTime? later with
        | some timed => skipOffset? timed
        | none => some rest
      else some rest
    | [] => some []
  | none => skipTime? text

/-- Digits with single underscores between them, and the rest. -/
def spanGrouped (isDigit : Char → Bool) : List Char → List Char × List Char
  | c :: rest =>
    if isDigit c then
      let (digits, after) := spanGrouped isDigit rest
      (c :: digits, after)
    else ([], c :: rest)
  | [] => ([], [])

/-- A run of digits in which an underscore may stand between two of them. -/
def readGrouped? (isDigit : Char → Bool) : Nat → List Char → Option (List Char × List Char)
  | 0, _ => none
  | bound + 1, text =>
    match spanGrouped isDigit text with
    | ([], _) => none
    | (digits, '_' :: rest) =>
      (readGrouped? isDigit bound rest).map fun (more, rest) => (digits ++ more, rest)
    | (digits, rest) => some (digits, rest)

def readDigits? (text : List Char) : Option (List Char × List Char) :=
  readGrouped? Char.isDigit (text.length + 1) text

/-- Whole digits in base ten. A zero in front stands alone. -/
def readWhole? : List Char → Option (List Char × List Char)
  | '0' :: rest => some (['0'], rest)
  | text => readDigits? text

def readSign : List Char → Bool × List Char
  | '+' :: text => (false, text)
  | '-' :: text => (true, text)
  | text => (false, text)

def valueInBase (base : Nat) (digits : List Char) : Nat :=
  digits.foldl (fun value digit => value * base + (hexDigitValue? digit).getD 0) 0

/-- Whole numbers have 64 bits, one of them for the sign. -/
def integer? (negative : Bool) (magnitude : Nat) : Option Document :=
  if negative then if magnitude ≤ 9223372036854775808 then some (.integer (-magnitude)) else none
  else if magnitude ≤ 9223372036854775807 then some (.integer magnitude)
  else none

def readBased? (base : Nat) (isDigit : Char → Bool) (text : List Char) :
    Option (Document × List Char) := do
  let (digits, rest) ← readGrouped? isDigit (text.length + 1) text
  let value ← integer? false (valueInBase base digits)
  some (value, rest)

/-- The decimals and the exponent of a number, when there are any. -/
def readFraction? (text : List Char) : Option ((List Char × Int) × List Char) := do
  let (decimals, text) ←
    match text with
    | '.' :: text => readDigits? text
    | text => some ([], text)
  match text with
  | mark :: later =>
    if mark = 'e' ∨ mark = 'E' then
      let (negative, later) := readSign later
      let (digits, rest) ← readDigits? later
      let exponent : Int := valueInBase 10 digits
      some ((decimals, if negative then -exponent else exponent), rest)
    else some ((decimals, 0), mark :: later)
  | [] => some ((decimals, 0), [])

def readDecimal? (text : List Char) : Option (Document × List Char) := do
  let (negative, text) := readSign text
  let (whole, rest) ← readWhole? text
  let isFraction :=
    match rest with
    | '.' :: _ => true
    | 'e' :: _ => true
    | 'E' :: _ => true
    | _ => false
  if isFraction then
    let ((decimals, exponent), rest) ← readFraction? rest
    let value := Binary64.ofDecimal negative (valueInBase 10 (whole ++ decimals))
      (exponent - decimals.length)
    if value = .infinite false then none else some (.float value, rest)
  else
    let value ← integer? negative (valueInBase 10 whole)
    some (value, rest)

/-- The numbers that are written as words. -/
def readSpecial? (text : List Char) : Option (Document × List Char) :=
  let (negative, text) := readSign text
  match text with
  | 'i' :: 'n' :: 'f' :: rest => some (.float (.infinite negative), rest)
  | 'n' :: 'a' :: 'n' :: rest => some (.float .nan, rest)
  | _ => none

/-- A number, a date or a time. -/
def readNumeric? (text : List Char) : Option (Document × List Char) :=
  match skipMoment? text with
  | some rest => some (.moment, rest)
  | none =>
    match text with
    | '0' :: 'x' :: rest => readBased? 16 (fun c => (hexDigitValue? c).isSome) rest
    | '0' :: 'o' :: rest => readBased? 8 (fun c => '0' ≤ c && c ≤ '7') rest
    | '0' :: 'b' :: rest => readBased? 2 (fun c => c = '0' || c = '1') rest
    | text =>
      match readSpecial? text with
      | some special => some special
      | none => readDecimal? text

end NamedData.Toml
