import NamedData.Binary64

namespace NamedData.Binary64

/-- The number nearest to digits times a power of ten. Powers far out of range
are settled without being computed. -/
def ofDecimal (negative : Bool) (digits : Nat) (exponent : Int) : Binary64 :=
  let magnitude : Int := (Nat.toDigits 10 digits).length + exponent
  if digits = 0 then finite negative 0 0
  else if 400 < magnitude then infinite negative
  else if magnitude < -400 then finite negative 0 0
  else if 0 ≤ exponent then ofQuotient negative (digits * tenTo exponent.toNat) 1
  else ofQuotient negative digits (tenTo (-exponent).toNat)

/-- A number shown with one decimal; a tie goes to the even tenth. -/
def tenthsText (value : Binary64) : String :=
  match value with
  | nan => "NaN"
  | infinite negative => if negative then "-inf" else "inf"
  | finite negative significand exponent =>
    let tenths := roundQuotient (significand * twoTo exponent * 10) (twoTo 1074)
    (if negative then "-" else "") ++ toString (tenths / 10) ++ "." ++ toString (tenths % 10)

/-- The reals that read back as a given positive number, over a common
denominator. The ends belong to it when the significand is even. -/
structure Interval where
  value : Nat
  low : Nat
  high : Nat
  closed : Bool

/-- Denominator of the interval's numbers: a quarter of the finest step. -/
def intervalUnit : Nat := twoTo 1076

/-- Below a power of two the steps are half as wide. -/
def interval (significand exponent : Nat) : Interval :=
  let step := twoTo exponent
  let value := 4 * significand * step
  { value
    low := if significand = twoTo 52 ∧ 0 < exponent then value - step else value - 2 * step
    high := value + 2 * step
    closed := significand % 2 = 0 }

def Interval.contains (interval : Interval) (num den : Nat) : Bool :=
  let scaled := num * intervalUnit
  if interval.closed then interval.low * den ≤ scaled && scaled ≤ interval.high * den
  else interval.low * den < scaled && scaled < interval.high * den

/-- The place of the first digit: 0 for numbers from 1 to below 10. -/
def Interval.leadingPlace (interval : Interval) : Int :=
  let whole := interval.value / intervalUnit
  if 0 < whole then (Nat.toDigits 10 whole).length - 1
  else
    match (List.range 400).find? fun shift => intervalUnit ≤ interval.value * tenTo shift with
    | some shift => -(shift : Int)
    | none => 0

/-- A grid point is a number of steps, each a power of ten. -/
def gridQuotient (steps : Nat) (place : Int) : Nat × Nat :=
  if 0 ≤ place then (steps * tenTo place.toNat, 1) else (steps, tenTo (-place).toNat)

/-- The point of a decimal grid that reads back as the number and lies nearest
to it, if one reads back at all. Of two equally near ones it is the even one. -/
def Interval.onGrid? (interval : Interval) (place : Int) : Option Nat :=
  let (stepNum, stepDen) := gridQuotient 1 place
  let num := interval.value * stepDen
  let den := intervalUnit * stepNum
  let below := num / den
  let readsBack (steps : Nat) : Bool :=
    let (pointNum, pointDen) := gridQuotient steps place
    interval.contains pointNum pointDen
  match readsBack below, readsBack (below + 1) with
  | true, true => some (roundQuotient num den)
  | true, false => some below
  | false, true => some (below + 1)
  | false, false => none

/-- The shortest digits that read back, with the place of the last one. -/
def Interval.shortest (interval : Interval) : Nat × Int :=
  let leading := interval.leadingPlace
  let grids := (List.range 17).filterMap fun (count : Nat) =>
    let place := leading - count
    (interval.onGrid? place).map (·, place)
  grids.headD (0, 0)

/-- Zeros at the end of the digits move into the place. -/
def trimZeros : Nat → Nat × Int → Nat × Int
  | 0, pair => pair
  | count + 1, (digits, place) =>
    if digits % 10 = 0 ∧ digits ≠ 0 then trimZeros count (digits / 10, place + 1)
    else (digits, place)

/-- Digits with a point are written out while the point falls within five
places before the first digit or sixteen after it, and with a signed exponent
otherwise. Whole numbers keep a zero after the point. -/
def layOut (digits : String) (place : Int) : String :=
  let count : Int := digits.length
  let point := count + place
  if 0 ≤ place ∧ point ≤ 16 then
    digits ++ String.ofList (List.replicate place.toNat '0') ++ ".0"
  else if 0 < point ∧ point ≤ 16 then
    String.ofList (digits.toList.take point.toNat) ++ "." ++
      String.ofList (digits.toList.drop point.toNat)
  else if -5 < point ∧ point ≤ 0 then
    "0." ++ String.ofList (List.replicate (-point).toNat '0') ++ digits
  else
    let rest := digits.toList.drop 1
    String.ofList (digits.toList.take 1) ++
      (if rest.isEmpty then "" else "." ++ String.ofList rest) ++
      (if 0 < point then "e+" else "e") ++ toString (point - 1)

/-- The shortest text that reads back as the same number. -/
def shortestText (value : Binary64) : String :=
  match value with
  | nan => "NaN"
  | infinite negative => if negative then "-inf" else "inf"
  | finite negative significand exponent =>
    let sign := if negative then "-" else ""
    if significand = 0 then sign ++ "0.0"
    else
      let (digits, place) := trimZeros 17 (interval significand exponent).shortest
      sign ++ layOut (toString digits) place

end NamedData.Binary64
