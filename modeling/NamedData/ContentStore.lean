import NamedData.NameTable
import NamedData.Packet

namespace NamedData

structure CachedData where
  data : Data
  /-- Until when the Data counts as fresh. Data without a freshness period is
  stale from the start. -/
  freshUntil : Option Instant
  /-- Nobody asked for it when it came. -/
  unsolicited : Bool
  /-- The number of its insertion, counted from the making of the store. -/
  serial : Nat

def CachedData.isFresh (cached : CachedData) (now : Instant) : Bool :=
  cached.freshUntil.any fun limit => now < limit

/-- Unsolicited Data leaves before any other, and the older before the newer. -/
def CachedData.leavesBefore (a b : CachedData) : Bool :=
  if a.unsolicited == b.unsolicited then a.serial < b.serial else a.unsolicited

/-- Data kept to answer later Interests, at most one packet under each name.
A store with capacity 0 keeps nothing. -/
structure ContentStore where
  capacity : Nat
  cached : NameTable CachedData
  insertions : Nat

namespace ContentStore

def empty (capacity : Nat) : ContentStore := ⟨capacity, ∅, 0⟩

def size (store : ContentStore) : Nat := store.cached.size

def isEmpty (store : ContentStore) : Bool := store.cached.isEmpty

def clear (store : ContentStore) : ContentStore := { store with cached := ∅ }

/-- The Data of the least name that answers an Interest. -/
def find? (store : ContentStore) (interest : Interest) (now : Instant) : Option Data :=
  (store.cached.findUnder? interest.name fun cached =>
    !interest.mustBeFresh || cached.isFresh now).map (·.data)

/-- Of the row found so far and another, the one that leaves first. -/
def sooner (found : Option (Name × CachedData)) (name : Name) (cached : CachedData) :
    Option (Name × CachedData) :=
  if found.all fun row => cached.leavesBefore row.2 then some (name, cached) else found

/-- The row to drop next: of all rows the one that leaves before the others. -/
def victim? (cached : NameTable CachedData) : Option (Name × CachedData) :=
  cached.foldl sooner none

def evictOne (cached : NameTable CachedData) : NameTable CachedData :=
  match victim? cached with
  | some row => cached.erase row.1
  | none => cached

/-- Takes Data in. When that makes the store too full, one packet goes, which
may be the new one; a packet that replaces another of its name pushes nothing
out. -/
def insert (store : ContentStore) (data : Data) (unsolicited : Bool) (now : Instant) :
    ContentStore :=
  if store.capacity = 0 then store
  else
    let serial := store.insertions + 1
    let cached := store.cached.insert data.name
      { data, freshUntil := data.freshness.map (now + ·), unsolicited, serial }
    { store with
      insertions := serial
      cached := if cached.size ≤ store.capacity then cached else evictOne cached }

/-- Whether the store takes Data in at all. -/
def accepts (store : ContentStore) : Bool := store.capacity != 0

end ContentStore

end NamedData
