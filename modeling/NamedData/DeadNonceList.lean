import NamedData.NameTable
import NamedData.Packet

namespace NamedData

/-- The nonce of an Interest that is no longer pending, with the time it was
noted. -/
structure DeadNonce where
  name : Name
  nonce : Nonce
  noted : Instant
  deriving DecidableEq

/-- A request is known by its name and its nonce. -/
abbrev RequestKey := Name × Nonce

def DeadNonce.key (record : DeadNonce) : RequestKey := (record.name, record.nonce)

/-- Requests compare by their names, and those of one name by their nonces. -/
def RequestKey.order : RequestKey → RequestKey → Ordering :=
  compareLex (compareOn fun key => key.1) (compareOn fun key => key.2)

instance : Std.TransCmp RequestKey.order :=
  inferInstanceAs (Std.TransCmp (compareLex (compareOn fun key : RequestKey => key.1)
    (compareOn fun key : RequestKey => key.2)))

instance : Std.LawfulEqCmp RequestKey.order where
  eq_of_compare {a b} same := by
    obtain ⟨names, nonces⟩ := Ordering.then_eq_eq.1 same
    exact Prod.ext (Std.LawfulEqCmp.eq_of_compare names) (Std.LawfulEqCmp.eq_of_compare nonces)

/-- Nonces that died within the lifetime, at most as many as the capacity
allows. A late Interest that carries one of them has looped. -/
structure DeadNonceList where
  lifetime : Duration
  capacity : Nat
  /-- The last time each listed nonce was noted. -/
  latest : Std.ExtTreeMap RequestKey Instant RequestKey.order
  /-- The older notes in the order they were made. A note speaks for its nonce
  only while it agrees with `latest`; older notes are passed over. -/
  log : List DeadNonce
  /-- The notes made since, the newest first. -/
  recent : List DeadNonce

namespace DeadNonceList

/-- A list always has room for one nonce. -/
def empty (lifetime : Duration) (capacity : Nat) : DeadNonceList :=
  ⟨lifetime, max capacity 1, ∅, [], []⟩

/-- Six seconds and 65536 nonces, when nothing else is asked for. -/
def standard : DeadNonceList := empty (Duration.ofSeconds 6 0) 65536

def contains (list : DeadNonceList) (name : Name) (nonce : Nonce) : Bool :=
  list.latest.contains (name, nonce)

def size (list : DeadNonceList) : Nat := list.latest.size

def isEmpty (list : DeadNonceList) : Bool := list.latest.isEmpty

def isCurrent (list : DeadNonceList) (record : DeadNonce) : Bool :=
  list.latest[record.key]? == some record.noted

/-- Takes the nonce of a note off the list. -/
def forget (list : DeadNonceList) (record : DeadNonce) : DeadNonceList :=
  { list with latest := list.latest.erase record.key }

/-- Drops the notes at the front of the log that have outlived the lifetime,
and with them the nonces they still speak for. -/
def evictFrom (list : DeadNonceList) (now : Instant) : List DeadNonce → DeadNonceList
  | [] => { list with log := [] }
  | record :: rest =>
    if record.noted + list.lifetime ≤ now then
      if list.isCurrent record then evictFrom (list.forget record) now rest
      else evictFrom list now rest
    else { list with log := record :: rest }

/-- The recent notes are looked at once no older one is left. -/
def evictExpired (list : DeadNonceList) (now : Instant) : DeadNonceList :=
  let evicted := list.evictFrom now list.log
  if evicted.log.isEmpty then { evicted with recent := [] }.evictFrom now evicted.recent.reverse
  else evicted

/-- Of the notes that eviction drops from the front of the log, how many still speak for
their nonce. -/
def expiredFrom (list : DeadNonceList) (now : Instant) : List DeadNonce → Nat
  | [] => 0
  | record :: rest =>
    if record.noted + list.lifetime ≤ now then
      if list.isCurrent record then expiredFrom (list.forget record) now rest + 1
      else expiredFrom list now rest
    else 0

/-- How many nonces are evicted, counted note by note. -/
def expiredCount (list : DeadNonceList) (now : Instant) : Nat :=
  let evicted := list.evictFrom now list.log
  list.expiredFrom now list.log +
    if evicted.log.isEmpty then
      { evicted with recent := [] }.expiredFrom now evicted.recent.reverse
    else 0

/-- While the list is too long, drops the oldest note whose nonce it still
speaks for. A note that no longer speaks for its nonce ends the search. -/
def shrinkFrom (list : DeadNonceList) : List DeadNonce → DeadNonceList
  | [] => { list with log := [] }
  | record :: rest =>
    if list.capacity < list.size then
      if list.isCurrent record then shrinkFrom (list.forget record) rest
      else { list with log := rest }
    else { list with log := record :: rest }

/-- Every note in the order it was made. -/
def notes (list : DeadNonceList) : List DeadNonce := list.log ++ list.recent.reverse

/-- Brings the recent notes into the log unless more than a number of older ones
are left. The notes and their order stay the same. -/
def refill (list : DeadNonceList) (count : Nat) : DeadNonceList :=
  if (list.log.drop count).isEmpty then { list with log := list.notes, recent := [] } else list

/-- Every dropped note takes a nonce with it, so no more of them are looked at
than there are nonces too many. -/
def shrink (list : DeadNonceList) : DeadNonceList :=
  if list.capacity < list.size then
    let ready := list.refill (list.size - list.capacity)
    ready.shrinkFrom ready.log
  else list

/-- Notes a nonce. One that is listed already starts its lifetime anew. -/
def add (list : DeadNonceList) (name : Name) (nonce : Nonce) (now : Instant) : DeadNonceList :=
  let kept := list.evictExpired now
  let record : DeadNonce := ⟨name, nonce, now⟩
  { kept with
    latest := kept.latest.insert record.key now
    recent := record :: kept.recent }.shrink

end DeadNonceList

end NamedData
