namespace NamedData

/-- A floating-point number of 64 bits. A finite one is the significand times
2^(exponent - 1074). The significand lies below 2^53, and not below 2^52
unless the exponent is 0. -/
inductive Binary64 where
  | nan
  | infinite (negative : Bool)
  | finite (negative : Bool) (significand exponent : Nat)
  deriving DecidableEq

namespace Binary64

def twoTo (exponent : Nat) : Nat := Nat.pow 2 exponent

def tenTo (exponent : Nat) : Nat := Nat.pow 10 exponent

/-- The nearest whole number to a quotient; of two equally near ones, the even
one. -/
def roundQuotient (num den : Nat) : Nat :=
  let below := num / den
  let rest := num % den
  if 2 * rest < den then below
  else if den < 2 * rest then below + 1
  else if below % 2 = 0 then below
  else below + 1

/-- The nearest number to a quotient of whole numbers; of two equally near
ones, the one with an even significand. What lies too far out is infinite. -/
def ofQuotient (negative : Bool) (num den : Nat) : Binary64 :=
  let scaled := num * twoTo 1074
  let exponent := (scaled / den).log2 + 1 - 53
  let significand := roundQuotient scaled (den * twoTo exponent)
  let (significand, exponent) :=
    if significand = twoTo 53 then (twoTo 52, exponent + 1) else (significand, exponent)
  if 2045 < exponent then infinite negative else finite negative significand exponent

def zero : Binary64 := finite false 0 0

def ofNat (value : Nat) : Binary64 := ofQuotient false value 1

def ofInt (value : Int) : Binary64 := ofQuotient (value < 0) value.natAbs 1

def isNegative : Binary64 → Bool
  | nan => false
  | infinite negative => negative
  | finite negative _ _ => negative

def isFinite : Binary64 → Bool
  | finite _ _ _ => true
  | _ => false

def neg : Binary64 → Binary64
  | nan => nan
  | infinite negative => infinite !negative
  | finite negative significand exponent => finite (!negative) significand exponent

/-- The exact product, rounded. -/
def mul : Binary64 → Binary64 → Binary64
  | nan, _ => nan
  | _, nan => nan
  | infinite a, b =>
    match b with
    | finite _ 0 _ => nan
    | b => infinite (a != b.isNegative)
  | a, infinite b =>
    match a with
    | finite _ 0 _ => nan
    | a => infinite (a.isNegative != b)
  | finite a m i, finite b n j => ofQuotient (a != b) (m * n * twoTo (i + j)) (twoTo 2148)

/-- The exact quotient, rounded. -/
def div : Binary64 → Binary64 → Binary64
  | nan, _ => nan
  | _, nan => nan
  | infinite _, infinite _ => nan
  | infinite a, b => infinite (a != b.isNegative)
  | a, infinite b => finite (a.isNegative != b) 0 0
  | finite a m i, finite b n j =>
    if n = 0 then if m = 0 then nan else infinite (a != b)
    else ofQuotient (a != b) (m * twoTo i) (n * twoTo j)

/-- A number above zero and at most a whole bound. -/
def isPositiveUpTo (value : Binary64) (bound : Nat) : Bool :=
  match value with
  | finite false significand exponent =>
    0 < significand && significand * twoTo exponent ≤ bound * twoTo 1074
  | _ => false

/-- The bits of the interchange format. -/
def bits : Binary64 → Nat
  | nan => 0x7ff8000000000000
  | infinite negative => (if negative then twoTo 63 else 0) + 0x7ff0000000000000
  | finite negative significand exponent =>
    (if negative then twoTo 63 else 0) +
      if significand < twoTo 52 then significand
      else (exponent + 1) * twoTo 52 + (significand - twoTo 52)

end Binary64

end NamedData
