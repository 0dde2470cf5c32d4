import NamedData.Binary64.Decimal
import NamedData.Document

namespace NamedData.Json

/-- The digits at the front of a text, and the rest. -/
def spanDigits (text : List Char) : List Char × List Char := text.span Char.isDigit

def digitValue (digit : Char) : Nat := digit.toNat - '0'.toNat

/-- A number as it is written: sign, whole digits, decimals, and exponent. -/
structure NumberText where
  negative : Bool
  whole : List Char
  decimals : Option (List Char)
  exponent : Option (Bool × List Char)

/-- The whole digits: at least one, and no zero in front of others. -/
def readWhole? (text : List Char) : Option (List Char × List Char) :=
  match spanDigits text with
  | ([], _) => none
  | ('0' :: _ :: _, _) => none
  | (digits, rest) => some (digits, rest)

def readDecimals? : List Char → Option (Option (List Char) × List Char)
  | '.' :: text =>
    match spanDigits text with
    | ([], _) => none
    | (digits, rest) => some (some digits, rest)
  | text => some (none, text)

def readExponent? : List Char → Option (Option (Bool × List Char) × List Char)
  | mark :: text =>
    if mark = 'e' ∨ mark = 'E' then
      let (negative, text) : Bool × List Char :=
        match text with
        | '+' :: text => (false, text)
        | '-' :: text => (true, text)
        | text => (false, text)
      match spanDigits text with
      | ([], _) => none
      | (digits, rest) => some (some (negative, digits), rest)
    else some (none, mark :: text)
  | [] => some (none, [])

def readNumberText? (text : List Char) : Option (NumberText × List Char) := do
  let (negative, text) : Bool × List Char :=
    match text with
    | '-' :: text => (true, text)
    | text => (false, text)
  let (whole, text) ← readWhole? text
  let (decimals, text) ← readDecimals? text
  let (exponent, text) ← readExponent? text
  return (⟨negative, whole, decimals, exponent⟩, text)

/-- Takes digits into a significand of 64 bits until one no longer fits. Gives
the significand and the digits left over. -/
def gather : Nat → List Char → Nat × List Char
  | significand, [] => (significand, [])
  | significand, digit :: rest =>
    if significand * 10 + digitValue digit ≤ Document.wordLimit then
      gather (significand * 10 + digitValue digit) rest
    else (significand, digit :: rest)

/-- The exponent as written, or nothing when it passes 31 bits. -/
def exponentValue? (digits : List Char) : Option Nat :=
  let value := digits.foldl (fun value digit => value * 10 + digitValue digit) 0
  if value ≤ 2147483647 then some value else none

def isZero : Binary64 → Bool
  | .finite _ 0 _ => true
  | _ => false

/-- Powers of ten are kept as rounded numbers up to the 308th. -/
def power (exponent : Nat) : Binary64 := Binary64.ofNat (Binary64.tenTo exponent)

/-- Divides by a power of ten, in steps of 308 places. -/
def scaleDown (value : Binary64) (places : Nat) : Binary64 :=
  if places ≤ 308 then value.div (power places)
  else if isZero value then value
  else scaleDown (value.div (power 308)) (places - 308)
termination_by places

/-- Multiplies by a power of ten. What leaves the range is unreadable. -/
def scaleUp? (value : Binary64) (places : Nat) : Option Binary64 :=
  if places ≤ 308 then
    let product := value.mul (power places)
    if product.isFinite then some product else none
  else if isZero value then some value
  else none

/-- A number with a fraction is read quickly, not exactly: its first digits as
a rounded number, then times or over a rounded power of ten. -/
def scale? (negative : Bool) (significand : Nat) (places : Int) : Option Binary64 :=
  let value := Binary64.ofNat significand
  let scaled :=
    if 0 ≤ places then scaleUp? value places.toNat else some (scaleDown value (-places).toNat)
  scaled.map fun result => if negative then result.neg else result

/-- The value of a number. One without decimals and exponent is whole as long
as 64 bits hold it; minus zero is not. -/
def NumberText.value (number : NumberText) : Document :=
  let (significand, surplus) := gather 0 number.whole
  let fraction (significand : Nat) (places : Int) : Document :=
    let scaled :=
      match number.exponent with
      | none => scale? number.negative significand places
      | some (below, digits) =>
        match exponentValue? digits with
        | some exponent =>
          scale? number.negative significand (if below then places - exponent else places + exponent)
        | none =>
          if significand ≠ 0 ∧ !below then none else some (.finite number.negative 0 0)
    match scaled with
    | some value => .float value
    | none => .unreadable
  match number.decimals with
  | some decimals =>
    let (longer, left) := gather significand decimals
    fraction longer (surplus.length - (decimals.length - left.length : Nat))
  | none =>
    if number.exponent.isSome || !surplus.isEmpty then fraction significand surplus.length
    else if !number.negative then .integer significand
    else if significand = 0 ∨ 9223372036854775808 < significand then
      .float (Binary64.ofNat significand).neg
    else .integer (-significand)

end NamedData.Json
