import NamedData.Time
import Std.Data.ExtTreeMap.Lemmas

namespace NamedData

/-- The handle of a timer: when it is due, and its number among all that were
set. Handles are never handed out twice. -/
structure TimerId where
  deadline : Instant
  number : Nat
  deriving DecidableEq

namespace TimerId

def toText (id : TimerId) : String := "#" ++ toString id.number

/-- Earlier deadlines come first, and equal deadlines in the order they were
set. -/
def order : TimerId → TimerId → Ordering :=
  compareLex (compareOn fun id => id.deadline.nanos) (compareOn fun id => id.number)

instance : Std.TransCmp order :=
  inferInstanceAs (Std.TransCmp (compareLex (compareOn fun id : TimerId => id.deadline.nanos)
    (compareOn fun id : TimerId => id.number)))

instance : Std.LawfulEqCmp order where
  eq_of_compare {a b} same := by
    obtain ⟨deadlines, numbers⟩ := Ordering.then_eq_eq.1 same
    have sameDeadline : a.deadline = b.deadline := Duration.ext (Nat.compare_eq_eq.1 deadlines)
    have sameNumber : a.number = b.number := Nat.compare_eq_eq.1 numbers
    obtain ⟨deadline, number⟩ := a
    cases sameDeadline
    cases sameNumber
    rfl

end TimerId

structure Timer (α : Type) where
  id : TimerId
  payload : α

/-- A virtual clock with the timers still running, in firing order. -/
structure Timers (α : Type) where
  now : Instant
  /-- How many timers were ever set. -/
  issued : Nat
  running : Std.ExtTreeMap TimerId α TimerId.order

namespace Timers

variable {α : Type}

def empty : Timers α := ⟨Duration.zero, 0, ∅⟩

instance : Inhabited (Timers α) := ⟨empty⟩

/-- A deadline in the past is moved up to the present. -/
def scheduleAt (timers : Timers α) (deadline : Instant) (payload : α) : TimerId × Timers α :=
  let id : TimerId := ⟨max deadline timers.now, timers.issued + 1⟩
  (id, { timers with
    issued := timers.issued + 1
    running := timers.running.insert id payload })

def schedule (timers : Timers α) (delay : Duration) (payload : α) : TimerId × Timers α :=
  timers.scheduleAt (timers.now + delay) payload

def isRunning (timers : Timers α) (id : TimerId) : Bool := timers.running.contains id

/-- Stops a timer. A handle whose timer has fired or was stopped before names
nothing, and the queue stays as it is. -/
def cancel (timers : Timers α) (id : TimerId) : Timers α :=
  { timers with running := timers.running.erase id }

def nextDeadline? (timers : Timers α) : Option Instant := timers.running.minKey?.map (·.deadline)

/-- Takes the first timer due by the given time and moves the clock to its
deadline. -/
def popDue? (timers : Timers α) (limit : Instant) : Option (Timer α × Timers α) :=
  match timers.running.minKey? with
  | none => none
  | some id =>
    if id.deadline ≤ limit then
      timers.running[id]?.map fun payload =>
        (⟨id, payload⟩,
          { timers with now := max timers.now id.deadline, running := timers.running.erase id })
    else none

/-- Moves the clock without firing anything. The clock never goes back. -/
def advanceTo (timers : Timers α) (time : Instant) : Timers α :=
  { timers with now := max timers.now time }

theorem size_cancel_le (timers : Timers α) (id : TimerId) :
    (timers.cancel id).running.size ≤ timers.running.size :=
  Std.ExtTreeMap.size_erase_le

theorem size_popDue {timers rest : Timers α} {limit : Instant} {timer : Timer α}
    (popped : timers.popDue? limit = some (timer, rest)) :
    timers.running.size = rest.running.size + 1 := by
  unfold popDue? at popped
  split at popped
  · cases popped
  · rename_i id _
    split at popped
    · obtain ⟨payload, found, same⟩ := Option.map_eq_some_iff.1 popped
      cases same
      have member : id ∈ timers.running := by
        rw [Std.ExtTreeMap.mem_iff_isSome_getElem?, found]; rfl
      have occupied : timers.running.size ≠ 0 := fun none => by
        have bare : timers.running = ∅ := Std.ExtTreeMap.isEmpty_iff.1 (by
          rw [Std.ExtTreeMap.isEmpty_eq_size_beq_zero, none]; rfl)
        rw [bare] at member
        exact Std.ExtTreeMap.not_mem_empty member
      have erased : (timers.running.erase id).size = timers.running.size - 1 := by
        rw [Std.ExtTreeMap.size_erase, if_pos (Std.ExtTreeMap.contains_iff_mem.2 member)]
      show timers.running.size = (timers.running.erase id).size + 1
      omega
    · cases popped

end Timers

end NamedData
