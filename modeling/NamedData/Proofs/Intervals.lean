import Mathlib.Tactic.Ring
import NamedData.Scenario
import NamedData.Proofs.Rounding

namespace NamedData

namespace Binary64

variable {significand exponent den : Nat} {value : Binary64}

theorem exists_of_isPositiveUpTo {bound : Nat} (passed : value.isPositiveUpTo bound = true) :
    ∃ significand exponent, value = finite false significand exponent ∧ 0 < significand ∧
      significand * twoTo exponent ≤ bound * twoTo 1074 := by
  unfold isPositiveUpTo at passed
  split at passed
  · rename_i significand exponent
    rw [Bool.and_eq_true_iff] at passed
    exact ⟨significand, exponent, rfl, of_decide_eq_true passed.1, of_decide_eq_true passed.2⟩
  · cases passed

theorem ofNat_one : ofNat 1 = finite false (twoTo 52) 1022 := by decide +kernel

/-- One divided by a positive number, in steps of the finest number. -/
theorem one_div (positive : 0 < significand) : (ofNat 1).div (finite false significand exponent) =
    ofSteps false (twoTo 2148) (significand * twoTo exponent) := by
  rw [ofNat_one, div, if_neg (Nat.ne_of_gt positive), ofQuotient_eq, ← twoTo_add, ← twoTo_add]
  rfl

/-- The nanoseconds of a number of seconds. -/
def nanos (significand exponent : Nat) : Nat :=
  roundQuotient (significand * twoTo exponent * 1000000000) (twoTo 1074)

theorem twoTo_53 : twoTo 53 = 9007199254740992 := by decide

/-- What is divided by a million at most is a microsecond or more. -/
theorem Rounds.micros_le (rounds : Rounds (twoTo 2148) den significand exponent)
    (atMost : den ≤ 1000000 * twoTo 1074) : 1000 ≤ nanos significand exponent := by
  have square : twoTo 2148 = twoTo 1074 * twoTo 1074 := twoTo_add 1074 1074
  have near := rounds.near.1
  have rounded := (@roundQuotient_near (significand * twoTo exponent * 1000000000) _ (twoTo_pos 1074)).1
  have positive := twoTo_pos 1074
  rw [square, twoTo_53] at near
  change 1000 ≤ roundQuotient _ _
  generalize significand * twoTo exponent = seconds at near rounded ⊢
  generalize twoTo 1074 = second at *
  have scaled := Nat.mul_le_mul_right seconds atMost
  refine Nat.le_of_not_lt fun short => ?_
  have few := Nat.mul_le_mul_left second (Nat.le_of_lt_succ short)
  -- One factor of the second is common to both sides.
  have least : 9007199254740992 * second ≤ 9007199254740992 * (1000000 * seconds) + second := by
    refine Nat.le_of_mul_le_mul_left ?_ positive
    calc second * (9007199254740992 * second)
        = 9007199254740992 * (second * second) := Nat.mul_left_comm _ _ _
      _ ≤ 9007199254740992 * (den * seconds) + second * second := near
      _ ≤ 9007199254740992 * (1000000 * second * seconds) + second * second := by omega
      _ = second * (9007199254740992 * (1000000 * seconds) + second) := by ring
  omega

/-- What is divided by 2^-64 or less is longer than any span of time. -/
theorem Rounds.longest_lt (rounds : Rounds (twoTo 2148) den significand exponent)
    (small : den ≤ twoTo 1010) : Duration.longest < nanos significand exponent := by
  have place : 1138 ≤ exponent + 52 := rounds.least <| by
    calc den * twoTo 1138 ≤ twoTo 1010 * twoTo 1138 := Nat.mul_le_mul_right _ small
      _ = twoTo 2148 := (twoTo_add 1010 1138).symm
  have long : twoTo 1138 ≤ significand * twoTo exponent := by
    calc twoTo 1138 ≤ twoTo (52 + exponent) := twoTo_le (by omega)
      _ = twoTo 52 * twoTo exponent := twoTo_add 52 exponent
      _ ≤ significand * twoTo exponent := Nat.mul_le_mul_right _ rounds.normal
  have split : twoTo 1138 = twoTo 1074 * twoTo 64 := twoTo_add 1074 64
  have limit : Duration.longest < twoTo 64 * 1000000000 := by decide
  refine Nat.lt_of_lt_of_le limit (le_roundQuotient (twoTo_pos 1074) ?_)
  rw [← Nat.mul_assoc, ← split]
  exact Nat.mul_le_mul_right _ long

/-- What is divided by the next number after 2^-64 or more is not. -/
theorem Rounds.le_longest (rounds : Rounds (twoTo 2148) den significand exponent)
    (large : (twoTo 52 + 1) * twoTo 958 ≤ den) :
    exponent ≤ 2045 ∧ nanos significand exponent ≤ Duration.longest := by
  have grain : twoTo 1074 = twoTo 116 * twoTo 958 := twoTo_add 116 958
  have square : twoTo 2148 = twoTo 1074 * twoTo 1074 := twoTo_add 1074 1074
  have more : twoTo 1010 < den := by
    refine Nat.lt_of_lt_of_le ?_ large
    rw [twoTo_add 52 958]
    exact Nat.mul_lt_mul_of_pos_right (Nat.lt_succ_self _) (twoTo_pos 958)
  have place : exponent + 52 ≤ 1138 := rounds.greatest <| by
    calc twoTo 2148 = twoTo 1010 * twoTo 1138 := twoTo_add 1010 1138
      _ < den * twoTo 1138 := Nat.mul_lt_mul_of_pos_right more (twoTo_pos 1138)
  refine ⟨by omega, ?_⟩
  have near := rounds.near.2
  have rounded := (@roundQuotient_near (significand * twoTo exponent * 1000000000) _ (twoTo_pos 1074)).2
  have positive := twoTo_pos 1074
  have fine := twoTo_pos 958
  rw [square, twoTo_53] at near
  change roundQuotient _ _ ≤ Duration.longest
  generalize significand * twoTo exponent = seconds at near rounded ⊢
  generalize twoTo 1074 = second at *
  generalize twoTo 958 = grains at *
  rw [show twoTo 52 + 1 = 4503599627370497 by decide] at large
  rw [show twoTo 116 = 83076749736557242056487941267521536 by decide] at grain
  have scaled := Nat.mul_le_mul_right seconds large
  -- The grain is common to both sides.
  have most : 9007199254740992 * (4503599627370497 * seconds) ≤
      9007199254740993 * (83076749736557242056487941267521536 * second) := by
    refine Nat.le_of_mul_le_mul_left ?_ fine
    calc grains * (9007199254740992 * (4503599627370497 * seconds))
        = 9007199254740992 * (4503599627370497 * grains * seconds) := by ring
      _ ≤ 9007199254740992 * (second * second) + second * second := by omega
      _ = 9007199254740993 * (83076749736557242056487941267521536 * grains * second) := by
        rw [← grain]
        ring
      _ = grains * (9007199254740993 * (83076749736557242056487941267521536 * second)) := by ring
  refine Nat.le_of_not_lt fun long => ?_
  have many := Nat.mul_le_mul_left second (Nat.succ_le_of_lt long)
  rw [show Duration.longest.succ = 18446744073709551616000000000 by decide] at many
  omega

/-- Between 2^-64 and the next number of 53 bits there is none. -/
theorem large_of_more (within : significand < twoTo 53)
    (more : twoTo 1010 < significand * twoTo exponent) :
    (twoTo 52 + 1) * twoTo 958 ≤ significand * twoTo exponent := by
  rcases Nat.lt_or_ge exponent 958 with low | high
  · have bound : significand * twoTo exponent ≤ twoTo 1010 := by
      calc significand * twoTo exponent
          ≤ twoTo 53 * twoTo 957 := Nat.mul_le_mul (Nat.le_of_lt within) (twoTo_le (by omega))
        _ = twoTo 1010 := (twoTo_add 53 957).symm
    exact absurd more (Nat.not_lt.mpr bound)
  · have split : twoTo exponent = twoTo (exponent - 958) * twoTo 958 := by
      rw [← twoTo_add, Nat.sub_add_cancel high]
    rw [split, ← Nat.mul_assoc] at more ⊢
    refine Nat.mul_le_mul_right _ (Nat.succ_le_of_lt ?_)
    rw [twoTo_add 52 958] at more
    exact Nat.lt_of_mul_lt_mul_right more

theorem isAtMost_iff : (finite false significand exponent).IsAtMost 1 (twoTo 64) ↔
    significand * twoTo exponent ≤ twoTo 1010 := by
  rw [IsAtMost, Nat.one_mul, twoTo_add 1010 64]
  exact Nat.mul_le_mul_right_iff (twoTo_pos 64)

end Binary64

/-- A clock that is not at the end of time moves on with any span of a microsecond. -/
theorem Duration.lt_add_of_pos {now span : Duration} (early : now < Duration.max)
    (positive : 0 < span.nanos) : now < now + span := by
  rw [Duration.lt_def] at early ⊢
  rw [Duration.nanos_add]
  simp only [Duration.max, Duration.nanos_ofNanos, Duration.longest] at early ⊢
  omega

theorem Duration.lt_add {now span : Duration} (early : now < Duration.max)
    (some : Duration.ofNanos 1000 ≤ span) : now < now + span :=
  lt_add_of_pos early (Nat.lt_of_lt_of_le (by decide) some)

open Binary64

namespace ConsumerSetting

variable {setting : ConsumerSetting}

/-- An interval is there if its nanoseconds fit. -/
theorem interval?_of_quotient {significand exponent : Nat} (quotient : (ofNat 1).div setting.frequency =
      if 2045 < exponent then infinite false else finite false significand exponent) :
    setting.interval? = if exponent ≤ 2045 ∧ nanos significand exponent ≤ Duration.longest then
      some (Duration.ofNanos (nanos significand exponent)) else none := by
  unfold interval?
  rw [quotient]
  by_cases far : 2045 < exponent
  · rw [if_pos far, if_neg fun fits => Nat.not_lt.mpr fits.1 far]
  · rw [if_neg far]
    have near : exponent ≤ 2045 := Nat.le_of_not_lt far
    simp only [near, true_and]
    rfl

/-- A frequency that passes its check gives an interval of a microsecond at least, but for
the frequencies of at most 2^-64, that give none. -/
theorem interval?_spec (passed : setting.frequency.isPositiveUpTo 1000000 = true)
    (canonical : setting.frequency.IsCanonical) :
    (setting.interval? = none ↔ setting.frequency.IsAtMost 1 (twoTo 64)) ∧
      ∀ interval, setting.interval? = some interval → Duration.ofNanos 1000 ≤ interval := by
  obtain ⟨significand, exponent, isFrequency, positive, atMost⟩ := exists_of_isPositiveUpTo passed
  rw [isFrequency] at canonical ⊢
  have within : significand < twoTo 53 := by
    cases canonical with
    | finite canonical => exact canonical.within
  have normal : significand * twoTo exponent * twoTo 52 ≤ twoTo 2148 := by
    calc significand * twoTo exponent * twoTo 52
        ≤ twoTo 20 * twoTo 1074 * twoTo 52 := by
          refine Nat.mul_le_mul_right _ (Nat.le_trans atMost (Nat.mul_le_mul_right _ ?_))
          decide
      _ = twoTo 1146 := by rw [← twoTo_add, ← twoTo_add]
      _ ≤ twoTo 2148 := twoTo_le (by decide)
  obtain ⟨quotient, place, rounds, isQuotient⟩ :=
    @ofSteps_rounds _ false _ (Nat.mul_pos positive (twoTo_pos exponent)) normal
  rw [← one_div positive, ← isFrequency] at isQuotient
  rw [interval?_of_quotient isQuotient, isAtMost_iff]
  refine ⟨⟨fun none => ?_, fun small => ?_⟩, fun interval found => ?_⟩
  · refine Nat.le_of_not_lt fun more => ?_
    have fits := rounds.le_longest (large_of_more within more)
    rw [if_pos fits] at none
    cases none
  · have long := rounds.longest_lt small
    exact if_neg fun fits => Nat.not_lt.mpr fits.2 long
  · split at found
    · rename_i fits
      have micro := rounds.micros_le atMost
      rw [← Option.some.inj found, Duration.le_def, Duration.nanos_ofNanos, Duration.nanos_ofNanos]
      generalize nanos quotient place = count at micro ⊢
      omega
    · cases found

end ConsumerSetting

end NamedData
