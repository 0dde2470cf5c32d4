import Mathlib.Tactic.DefEqTransformations
import NamedData.Binary64.Decimal

namespace NamedData

namespace Binary64

variable {num den low high : Nat}

theorem twoTo_pos (exponent : Nat) : 0 < twoTo exponent := Nat.pow_pos (by decide)

theorem twoTo_add (a b : Nat) : twoTo (a + b) = twoTo a * twoTo b := Nat.pow_add 2 a b

theorem twoTo_le (le : low ≤ high) : twoTo low ≤ twoTo high := Nat.pow_le_pow_right (by decide) le

theorem lt_of_twoTo_lt (less : twoTo low < twoTo high) : low < high :=
  (Nat.pow_lt_pow_iff_right (by decide)).mp less

/-- A finite number has the least exponent that its significand allows, and at most 53 bits. -/
structure Canonical (significand exponent : Nat) : Prop where
  within : significand < twoTo 53
  normal : twoTo 52 ≤ significand ∨ exponent = 0
  finite : exponent ≤ 2045

/-- A number as 64 bits can hold it. -/
inductive IsCanonical : Binary64 → Prop
  | nan : IsCanonical nan
  | infinite {negative : Bool} : IsCanonical (infinite negative)
  | finite {negative : Bool} {significand exponent : Nat} :
    Canonical significand exponent → IsCanonical (finite negative significand exponent)

variable {negative : Bool}

theorem isCanonical_zero : (finite negative 0 0).IsCanonical :=
  .finite ⟨twoTo_pos 53, .inr rfl, Nat.zero_le _⟩

/-- A number is at most a fraction. -/
def IsAtMost : Binary64 → Nat → Nat → Prop
  | nan, _, _ => False
  | infinite negative, _, _ => negative = true
  | finite true _ _, _, _ => True
  | finite false significand exponent, num, den =>
    significand * twoTo exponent * den ≤ num * twoTo 1074

/-- Rounding moves a quotient by no more than a half. -/
theorem roundQuotient_near (positive : 0 < den) :
    2 * num ≤ 2 * (den * roundQuotient num den) + den ∧
      2 * (den * roundQuotient num den) ≤ 2 * num + den := by
  have split : den * (num / den) + num % den = num := Nat.div_add_mod num den
  have rest : num % den < den := Nat.mod_lt num positive
  have above : den * (num / den + 1) = den * (num / den) + den := Nat.mul_succ _ _
  unfold roundQuotient
  dsimp only
  split
  · omega
  split
  · omega
  split <;> omega

/-- A quotient between whole numbers is rounded to one between them. -/
theorem le_roundQuotient (positive : 0 < den) (above : den * low ≤ num) :
    low ≤ roundQuotient num den := by
  have near := (@roundQuotient_near num den positive).1
  refine Nat.le_of_not_lt fun less => ?_
  have next : den * (roundQuotient num den + 1) ≤ den * low := Nat.mul_le_mul_left den (by omega)
  rw [Nat.mul_succ] at next
  omega

theorem roundQuotient_le (positive : 0 < den) (below : num ≤ den * high) :
    roundQuotient num den ≤ high := by
  have near := (@roundQuotient_near num den positive).2
  refine Nat.le_of_not_lt fun more => ?_
  have next : den * (high + 1) ≤ den * roundQuotient num den := Nat.mul_le_mul_left den (by omega)
  rw [Nat.mul_succ] at next
  omega

/-- The number that a quotient is rounded to, where it has all of its 53 bits. The quotient
is told in steps of the finest number, as `scaled / den`. -/
structure Rounds (scaled den significand exponent : Nat) : Prop where
  within : significand < twoTo 53
  normal : twoTo 52 ≤ significand
  near : twoTo 53 * scaled ≤ twoTo 53 * (den * (significand * twoTo exponent)) + scaled ∧
    twoTo 53 * (den * (significand * twoTo exponent)) ≤ twoTo 53 * scaled + scaled
  least : ∀ {place : Nat}, den * twoTo place ≤ scaled → place ≤ exponent + 52
  greatest : ∀ {place : Nat}, scaled < den * twoTo place → exponent + 52 ≤ place

/-- The leading place of a quotient. -/
theorem exists_leading {scaled : Nat} (positive : 0 < den) (normal : den * twoTo 52 ≤ scaled) :
    ∃ place, (scaled / den).log2 + 1 - 53 = place ∧ den * twoTo (place + 52) ≤ scaled ∧
      scaled < den * twoTo (place + 53) := by
  have large : twoTo 52 ≤ scaled / den := (Nat.le_div_iff_mul_le positive).mpr (by rwa [Nat.mul_comm])
  have some : scaled / den ≠ 0 := Nat.ne_of_gt (Nat.lt_of_lt_of_le (twoTo_pos 52) large)
  have leading : 52 ≤ (scaled / den).log2 := (Nat.le_log2 some).mpr large
  refine ⟨_, rfl, ?_, ?_⟩
  · have low : twoTo ((scaled / den).log2) ≤ scaled / den := Nat.log2_self_le some
    rw [show (scaled / den).log2 + 1 - 53 + 52 = (scaled / den).log2 by omega, Nat.mul_comm]
    exact (Nat.le_div_iff_mul_le positive).mp low
  · have high : scaled / den < twoTo ((scaled / den).log2 + 1) := Nat.lt_log2_self
    rw [show (scaled / den).log2 + 1 - 53 + 53 = (scaled / den).log2 + 1 by omega, Nat.mul_comm]
    exact (Nat.div_lt_iff_lt_mul positive).mp high

/-- A quotient that is rounded to whole steps, each the last of its 53 places, moves by no
more than half a step, which is one part in 2^53. -/
theorem rounds_of_steps {scaled rounded place significand exponent : Nat}
    (low : den * twoTo (place + 52) ≤ scaled) (high : scaled < den * twoTo (place + 53))
    (near : 2 * scaled ≤ 2 * (den * twoTo place * rounded) + den * twoTo place ∧
      2 * (den * twoTo place * rounded) ≤ 2 * scaled + den * twoTo place)
    (within : significand < twoTo 53) (normal : twoTo 52 ≤ significand)
    (value : significand * twoTo exponent = rounded * twoTo place)
    (up : place ≤ exponent) (next : exponent ≤ place + 1) : Rounds scaled den significand exponent := by
  have same : den * (significand * twoTo exponent) = den * twoTo place * rounded := by
    rw [value, Nat.mul_assoc, Nat.mul_comm rounded]
  have fine : twoTo 52 * (den * twoTo place) ≤ scaled := by
    rw [Nat.mul_comm, Nat.mul_assoc, ← twoTo_add]
    exact low
  have halves : twoTo 53 = 2 * twoTo 52 := by decide
  refine ⟨within, normal, ?_, fun {other} under => ?_, fun {other} above => ?_⟩
  · rw [same, halves]
    have up := Nat.mul_le_mul_left (twoTo 52) near.1
    have down := Nat.mul_le_mul_left (twoTo 52) near.2
    generalize den * twoTo place = step at up down fine ⊢
    generalize twoTo 52 = half at up down fine ⊢
    rw [Nat.mul_add, Nat.mul_left_comm, Nat.mul_left_comm half 2] at up down
    rw [Nat.mul_assoc, Nat.mul_assoc]
    omega
  · have passes := Nat.lt_of_le_of_lt under high
    have := lt_of_twoTo_lt (Nat.lt_of_mul_lt_mul_left passes)
    omega
  · have passes := Nat.lt_of_le_of_lt low above
    have := lt_of_twoTo_lt (Nat.lt_of_mul_lt_mul_left passes)
    omega

/-- The number that is nearest to a quotient of steps of the finest number. -/
def ofSteps (negative : Bool) (scaled den : Nat) : Binary64 :=
  let exponent := (scaled / den).log2 + 1 - 53
  let significand := roundQuotient scaled (den * twoTo exponent)
  if significand = twoTo 53 then
    if 2045 < exponent + 1 then infinite negative else finite negative (twoTo 52) (exponent + 1)
  else if 2045 < exponent then infinite negative else finite negative significand exponent

theorem ofQuotient_eq : ofQuotient negative num den = ofSteps negative (num * twoTo 1074) den := by
  -- The definition is put in for the constant alone: with its arguments, the kernel would compute.
  have all : ofQuotient = fun negative num den => ofSteps negative (num * twoTo 1074) den := by
    delta ofQuotient
    funext negative num den
    rw [ofSteps]
    generalize num * twoTo 1074 = scaled
    extract_lets _ exponent significand
    by_cases carries : significand = twoTo 53
    · rw [if_pos carries]
      exact (if_pos carries).symm
    · rw [if_neg carries]
      exact (if_neg carries).symm
  rw [all]

/-- A quotient is rounded at the last of 53 places from the leading one on. -/
theorem ofSteps_rounds {scaled : Nat} (positive : 0 < den) (normal : den * twoTo 52 ≤ scaled) :
    ∃ significand exponent, Rounds scaled den significand exponent ∧ ofSteps negative scaled den =
      if 2045 < exponent then infinite negative else finite negative significand exponent := by
  obtain ⟨place, isPlace, low, high⟩ := exists_leading positive normal
  have stepPositive : 0 < den * twoTo place := Nat.mul_pos positive (twoTo_pos place)
  have near := @roundQuotient_near scaled _ stepPositive
  have least : twoTo 52 ≤ roundQuotient scaled (den * twoTo place) :=
    le_roundQuotient stepPositive (by rw [Nat.mul_assoc, ← twoTo_add]; exact low)
  have most : roundQuotient scaled (den * twoTo place) ≤ twoTo 53 :=
    roundQuotient_le stepPositive (by rw [Nat.mul_assoc, ← twoTo_add]; exact Nat.le_of_lt high)
  unfold ofSteps
  dsimp only
  rw [isPlace]
  generalize roundQuotient scaled (den * twoTo place) = rounded at near least most
  by_cases carries : rounded = twoTo 53
  · -- All 53 places round up to the next power of two.
    rw [if_pos carries]
    refine ⟨twoTo 52, place + 1, ?_, rfl⟩
    refine rounds_of_steps low high near ?_ (Nat.le_refl _) ?_ (Nat.le_succ _) (Nat.le_refl _)
    · exact Nat.pow_lt_pow_right (by decide) (by decide)
    · rw [carries, ← twoTo_add, ← twoTo_add]
      exact congrArg twoTo (by omega)
  · rw [if_neg carries]
    refine ⟨rounded, place, ?_, rfl⟩
    exact rounds_of_steps low high near (Nat.lt_of_le_of_ne most carries) least rfl (Nat.le_refl _)
      (Nat.le_succ _)

theorem roundQuotient_le_succ : roundQuotient num den ≤ num / den + 1 := by
  unfold roundQuotient
  dsimp only
  split
  · exact Nat.le_succ _
  split
  · exact Nat.le_refl _
  split
  · exact Nat.le_succ _
  · exact Nat.le_refl _

theorem isCanonical_ofSteps (scaled : Nat) : (ofSteps negative scaled den).IsCanonical := by
  by_cases normal : 0 < den ∧ den * twoTo 52 ≤ scaled
  · obtain ⟨significand, exponent, rounds, isRounded⟩ := @ofSteps_rounds _ negative _ normal.1 normal.2
    rw [isRounded]
    split
    · exact .infinite
    · exact .finite ⟨rounds.within, .inl rounds.normal, Nat.le_of_not_lt ‹_›⟩
  · -- The quotient has fewer than 53 places before the point, and keeps those.
    have few : scaled / den < twoTo 52 := by
      rcases Nat.eq_zero_or_pos den with none | positive
      · rw [none, Nat.div_zero]
        exact twoTo_pos 52
      · rw [Nat.div_lt_iff_lt_mul positive, Nat.mul_comm]
        exact Nat.lt_of_not_le fun many => normal ⟨positive, many⟩
    have place : (scaled / den).log2 + 1 - 53 = 0 := by
      by_cases none : scaled / den = 0
      · rw [none]
        rfl
      · have := (Nat.log2_lt none).mpr few
        omega
    have rounded : roundQuotient scaled (den * twoTo 0) < twoTo 53 := by
      refine Nat.lt_of_le_of_lt roundQuotient_le_succ ?_
      rw [show den * twoTo 0 = den from Nat.mul_one den]
      exact Nat.lt_of_le_of_lt few (Nat.pow_lt_pow_right (by decide) (by decide))
    unfold ofSteps
    dsimp only
    rw [place, if_neg (Nat.ne_of_lt rounded), if_neg (Nat.not_lt.mpr (Nat.zero_le _))]
    exact .finite ⟨rounded, .inr rfl, Nat.zero_le _⟩

/-- Whatever is rounded can be held by 64 bits, and so can all that is read. -/
theorem isCanonical_ofQuotient (num den : Nat) : (ofQuotient negative num den).IsCanonical := by
  rw [ofQuotient_eq]
  exact isCanonical_ofSteps _

theorem isCanonical_ofNat (value : Nat) : (ofNat value).IsCanonical := by
  unfold ofNat
  exact isCanonical_ofQuotient _ _

theorem isCanonical_ofInt (value : Int) : (ofInt value).IsCanonical := by
  unfold ofInt
  exact isCanonical_ofQuotient _ _

theorem isCanonical_ofDecimal (digits : Nat) (exponent : Int) :
    (ofDecimal negative digits exponent).IsCanonical := by
  unfold ofDecimal
  dsimp only
  split
  · exact isCanonical_zero
  split
  · exact .infinite
  split
  · exact isCanonical_zero
  split
  · exact isCanonical_ofQuotient _ _
  · exact isCanonical_ofQuotient _ _

end Binary64

end NamedData
