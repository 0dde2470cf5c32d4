namespace NamedData

/-- A span of time in whole nanoseconds. The longest span is the last
nanosecond below 2^64 seconds; a sum that would pass it stops there. -/
@[ext] structure Duration where
  nanos : Nat
  within : nanos ≤ 18446744073709551615999999999
  deriving DecidableEq

/-- A point on the virtual clock is the time passed since the run began. -/
abbrev Instant := Duration

namespace Duration

/-- Nanoseconds of the longest span. -/
def longest : Nat := 18446744073709551615999999999

def ofNanos (count : Nat) : Duration := ⟨min count longest, Nat.min_le_right _ _⟩

def ofMillis (count : Nat) : Duration := ofNanos (count * 1000000)

def ofSeconds (count extra : Nat) : Duration := ofNanos (count * 1000000000 + extra)

def zero : Duration := ofNanos 0

def max : Duration := ofNanos longest

instance : Inhabited Duration := ⟨zero⟩

instance : Add Duration := ⟨fun a b => ofNanos (a.nanos + b.nanos)⟩

/-- The time from `b` to `a`, and nothing when `b` is the later one. -/
instance : Sub Duration := ⟨fun a b => ofNanos (a.nanos - b.nanos)⟩

instance : LE Duration := ⟨fun a b => a.nanos ≤ b.nanos⟩

instance : LT Duration := ⟨fun a b => a.nanos < b.nanos⟩

instance (a b : Duration) : Decidable (a ≤ b) := inferInstanceAs (Decidable (a.nanos ≤ b.nanos))

instance (a b : Duration) : Decidable (a < b) := inferInstanceAs (Decidable (a.nanos < b.nanos))

instance : Ord Duration := ⟨fun a b => compare a.nanos b.nanos⟩

instance : Max Duration := maxOfLe

instance : Min Duration := minOfLe

theorem le_def {a b : Duration} : a ≤ b ↔ a.nanos ≤ b.nanos := Iff.rfl

theorem lt_def {a b : Duration} : a < b ↔ a.nanos < b.nanos := Iff.rfl

@[simp] theorem nanos_ofNanos (count : Nat) : (ofNanos count).nanos = min count longest := rfl

theorem nanos_add (a b : Duration) : (a + b).nanos = min (a.nanos + b.nanos) longest := rfl

theorem nanos_sub (a b : Duration) : (a - b).nanos = a.nanos - b.nanos := by
  have fits := a.within
  show min (a.nanos - b.nanos) longest = a.nanos - b.nanos
  unfold longest
  omega

theorem le_add (a b : Duration) : a ≤ a + b := by
  have fits := a.within
  rw [le_def, nanos_add]
  unfold longest
  omega

/-- Whole seconds of a span. -/
def seconds (span : Duration) : Nat := span.nanos / 1000000000

/-- Nanoseconds past the last whole second. -/
def subsecond (span : Duration) : Nat := span.nanos % 1000000000

def wholeMillis (span : Duration) : Nat := span.nanos / 1000000

def wholeMicros (span : Duration) : Nat := span.nanos / 1000

/-- A clock reading is shown in whole milliseconds. -/
def clockText (instant : Instant) : String := toString instant.wholeMillis ++ "ms"

end Duration

end NamedData
