import NamedData.NameTable
import NamedData.Packet
import NamedData.Timers

namespace NamedData

/-- The handle of an entry of the pending Interest table: its number among all
that ever were, and the name it was given for. Numbers are never given twice, so
the name adds nothing but a way to speak of entries that are gone. -/
structure PitId where
  number : Nat
  name : Name
  deriving DecidableEq

namespace PitId

def toText (id : PitId) : String := "pit#" ++ toString id.number

/-- The order in which handles were given. -/
def order : PitId → PitId → Ordering :=
  compareLex (compareOn fun id => id.number) (compareOn fun id => id.name)

instance : Std.TransCmp order :=
  inferInstanceAs (Std.TransCmp (compareLex (compareOn fun id : PitId => id.number)
    (compareOn fun id : PitId => id.name)))

instance : Std.LawfulEqCmp order where
  eq_of_compare {a b} same := by
    obtain ⟨numbers, names⟩ := Ordering.then_eq_eq.1 same
    have sameNumber : a.number = b.number := Nat.compare_eq_eq.1 numbers
    have sameName : a.name = b.name := Std.LawfulEqCmp.eq_of_compare names
    obtain ⟨number, name⟩ := a
    cases sameNumber
    cases sameName
    rfl

end PitId

/-- A downstream waits for Data: the last Interest it sent, and until when. -/
structure InRecord where
  face : FaceId
  interest : Interest
  renewed : Instant
  expiry : Instant

/-- A next hop was asked: the last nonce it was sent, and until when its
answer is awaited. -/
structure OutRecord where
  face : FaceId
  nonce : Nonce
  renewed : Instant
  expiry : Instant

/-- Where a nonce was seen before, relative to the face it came from now. -/
structure NonceSighting where
  inSame : Bool
  inOther : Bool
  outSame : Bool
  outOther : Bool
  deriving DecidableEq

namespace NonceSighting

def isNone (sighting : NonceSighting) : Bool :=
  !(sighting.inSame || sighting.inOther || sighting.outSame || sighting.outOther)

/-- A nonce that comes back from a face it was received from or sent to has
looped. -/
def isLoop (sighting : NonceSighting) : Bool := sighting.inSame || sighting.outSame

/-- A nonce seen only with other faces marks a second downstream. -/
def isDuplicate (sighting : NonceSighting) : Bool :=
  !sighting.isLoop && (sighting.inOther || sighting.outOther)

end NonceSighting

/-- A pending Interest: who waits for it, who was asked, and the two timers
that can end it. -/
structure PitEntry where
  id : PitId
  name : Name
  inRecords : List InRecord := []
  outRecords : List OutRecord := []
  /-- Some downstream asked for fresh Data, now or earlier. -/
  mustBeFresh : Bool := false
  unsatisfyTimer : Option TimerId := none
  stragglerTimer : Option TimerId := none

namespace PitEntry

def inRecord? (entry : PitEntry) (face : FaceId) : Option InRecord :=
  entry.inRecords.find? (·.face == face)

def outRecord? (entry : PitEntry) (face : FaceId) : Option OutRecord :=
  entry.outRecords.find? (·.face == face)

/-- A renewed record keeps its place; a new one goes to the end. -/
def putRecord {α : Type} (faceOf : α → FaceId) (record : α) : List α → List α
  | [] => [record]
  | first :: rest =>
    if faceOf first = faceOf record then record :: rest
    else first :: putRecord faceOf record rest

/-- Notes that a downstream waits, for the lifetime from now on. -/
def addInRecord (entry : PitEntry) (face : FaceId) (interest : Interest) (now : Instant)
    (lifetime : Duration) : PitEntry :=
  { entry with
    mustBeFresh := entry.mustBeFresh || interest.mustBeFresh
    inRecords := putRecord InRecord.face ⟨face, interest, now, now + lifetime⟩ entry.inRecords }

/-- Notes that a next hop was asked, for the lifetime from now on. -/
def addOutRecord (entry : PitEntry) (face : FaceId) (nonce : Nonce) (now : Instant)
    (lifetime : Duration) : PitEntry :=
  { entry with outRecords := putRecord OutRecord.face ⟨face, nonce, now, now + lifetime⟩ entry.outRecords }

def deleteInRecord (entry : PitEntry) (face : FaceId) : PitEntry :=
  { entry with inRecords := entry.inRecords.filter (·.face != face) }

def deleteOutRecord (entry : PitEntry) (face : FaceId) : PitEntry :=
  { entry with outRecords := entry.outRecords.filter (·.face != face) }

def clearInRecords (entry : PitEntry) : PitEntry := { entry with inRecords := [] }

def hasUnexpiredInRecords (entry : PitEntry) (now : Instant) : Bool :=
  entry.inRecords.any fun record => now < record.expiry

def hasUnexpiredOutRecords (entry : PitEntry) (now : Instant) : Bool :=
  entry.outRecords.any fun record => now < record.expiry

/-- When the last downstream stops waiting. -/
def lastInRecordExpiry? (entry : PitEntry) : Option Instant :=
  (entry.inRecords.map (·.expiry)).max?

def findNonce (entry : PitEntry) (nonce : Nonce) (face : FaceId) : NonceSighting where
  inSame := entry.inRecords.any fun record => record.interest.nonce == nonce && record.face == face
  inOther := entry.inRecords.any fun record => record.interest.nonce == nonce && record.face != face
  outSame := entry.outRecords.any fun record => record.nonce == nonce && record.face == face
  outOther := entry.outRecords.any fun record => record.nonce == nonce && record.face != face

end PitEntry

/-- The pending Interests: the entries under their handles, and an index of the
handles under their names. -/
structure Pit where
  entries : Std.ExtTreeMap PitId PitEntry PitId.order
  index : NameTable PitId
  /-- How many entries were ever made. -/
  created : Nat

namespace Pit

def empty : Pit := ⟨∅, ∅, 0⟩

def size (pit : Pit) : Nat := pit.entries.size

def isEmpty (pit : Pit) : Bool := pit.entries.isEmpty

/-- The entries in the order they came up. -/
def inOrder (pit : Pit) : List PitEntry := pit.entries.toList.map (·.2)

def ids (pit : Pit) : List PitId := pit.entries.keys

def find? (pit : Pit) (name : Name) : Option PitId := pit.index[name]?

/-- The entry of a handle. The handle of an erased entry finds nothing, even
when its name is pending again. -/
def get? (pit : Pit) (id : PitId) : Option PitEntry := pit.entries[id]?

/-- Changes one entry. A handle that names no entry changes nothing. -/
def modify (pit : Pit) (id : PitId) (change : PitEntry → PitEntry) : Pit :=
  { pit with entries := pit.entries.modify id change }

/-- Finds the entry of a name, or makes it. -/
def insert (pit : Pit) (name : Name) : PitId × Pit :=
  match pit.find? name with
  | some id => (id, pit)
  | none =>
    let id : PitId := ⟨pit.created + 1, name⟩
    (id, ⟨pit.entries.insert id { id, name }, pit.index.insert name id, pit.created + 1⟩)

def erase (pit : Pit) (id : PitId) : Pit :=
  match pit.get? id with
  | none => pit
  | some entry =>
    { pit with entries := pit.entries.erase id, index := pit.index.erase entry.name }

/-- The entries that Data of this name answers, longest name first. -/
def dataMatches (pit : Pit) (dataName : Name) : List PitId := dataName.prefixes.filterMap pit.find?

end Pit

end NamedData
