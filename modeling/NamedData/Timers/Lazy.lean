import NamedData.Timers

namespace NamedData

/-- A queue of timers that is spared the search when a timer is stopped: the
handle stays where it is until it would be the next to fire. -/
structure LazyTimers (α : Type) where
  now : Instant
  /-- How many timers were ever set. -/
  issued : Nat
  /-- Handles in firing order, some of them of timers that were stopped. -/
  handles : List TimerId
  /-- What the running timers carry, by their numbers. -/
  payloads : Std.ExtTreeMap Nat α compare

namespace LazyTimers

variable {α : Type}

def empty : LazyTimers α := ⟨Duration.zero, 0, [], ∅⟩

instance : Inhabited (LazyTimers α) := ⟨empty⟩

/-- Puts a handle among others that are in firing order. -/
def place (id : TimerId) : List TimerId → List TimerId
  | [] => [id]
  | first :: rest => if TimerId.order id first = .lt then id :: first :: rest else first :: place id rest

def isRunning (timers : LazyTimers α) (number : Nat) : Bool := timers.payloads.contains number

/-- Lets the handles of stopped timers go, up to the first of a timer that still
runs. -/
def clear (timers : LazyTimers α) : LazyTimers α :=
  { timers with handles := timers.handles.dropWhile fun id => !timers.isRunning id.number }

def scheduleAt (timers : LazyTimers α) (deadline : Instant) (payload : α) :
    Nat × LazyTimers α :=
  let number := timers.issued + 1
  (number, { timers with
    issued := number
    handles := place ⟨max deadline timers.now, number⟩ timers.handles
    payloads := timers.payloads.insert number payload })

def schedule (timers : LazyTimers α) (delay : Duration) (payload : α) : Nat × LazyTimers α :=
  timers.scheduleAt (timers.now + delay) payload

def cancel (timers : LazyTimers α) (number : Nat) : LazyTimers α :=
  { timers with payloads := timers.payloads.erase number }.clear

/-- Looks at the first handle only, and not at what is running. -/
def nextDeadline? (timers : LazyTimers α) : Option Instant :=
  timers.handles.head?.map (·.deadline)

/-- Takes the first timer due by the given time and moves the clock to its
deadline. Stopped timers are let go before and after. -/
def popDue (timers : LazyTimers α) (limit : Instant) : Option (Timer α) × LazyTimers α :=
  let cleared := timers.clear
  match cleared.handles with
  | [] => (none, cleared)
  | id :: rest =>
    if id.deadline ≤ limit then
      match cleared.payloads[id.number]? with
      | none => (none, { cleared with handles := rest })
      | some payload =>
        let popped := { cleared with
          handles := rest
          payloads := cleared.payloads.erase id.number }.clear
        (some ⟨id, payload⟩, { popped with now := max popped.now id.deadline })
    else (none, cleared)

def advanceTo (timers : LazyTimers α) (time : Instant) : LazyTimers α :=
  { timers with now := max timers.now time }

end LazyTimers

end NamedData
