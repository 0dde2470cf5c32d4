import NamedData.Packet

namespace NamedData

/-- An end point for packets. Local faces belong to applications on the host. -/
structure Face where
  isLocal : Bool
  /-- The label of a face that keeps what it is sent until the host collects
  it. A face without one passes packets on by itself. -/
  label : Option String := none
  /-- The link address of this end. Interests hinted at another address are
  not meant for it. -/
  address : Option String := none

def Face.describe (face : Face) : String :=
  match face.label with
  | some label => "memory:" ++ label ++ (if face.isLocal then " local" else "")
  | none => if face.isLocal then "local" else "remote"

inductive FaceError where
  | alreadyExists (face : FaceId)
  | notReserved (face : FaceId)
  | notFound (face : FaceId)
  deriving DecidableEq

def FaceError.message : FaceError → String
  | alreadyExists face => "Face already exists: " ++ face.toText
  | notReserved face => "Face id " ++ face.toText ++ " is outside the reserved range"
  | notFound face => "Face not found: " ++ face.toText

/-- The faces of one forwarder, in ascending order of their numbers. -/
structure FaceTable where
  faces : List (FaceId × Face)
  /-- How many numbers were handed out past the reserved ones. -/
  added : Nat

namespace FaceTable

def empty : FaceTable := ⟨[], 0⟩

def size (table : FaceTable) : Nat := table.faces.length

def isEmpty (table : FaceTable) : Bool := table.faces.isEmpty

def ids (table : FaceTable) : List FaceId := table.faces.map (·.1)

def find? (table : FaceTable) (id : FaceId) : Option Face :=
  (table.faces.find? (·.1 == id)).map (·.2)

def contains (table : FaceTable) (id : FaceId) : Bool := (table.find? id).isSome

/-- A face that is not in the table counts as not local. -/
def isLocal (table : FaceTable) (id : FaceId) : Bool := (table.find? id).any (·.isLocal)

def address? (table : FaceTable) (id : FaceId) : Option String := (table.find? id).bind (·.address)

def place (id : FaceId) (face : Face) : List (FaceId × Face) → List (FaceId × Face)
  | [] => [(id, face)]
  | first :: rest =>
    if first.1.number < id.number then first :: place id face rest else (id, face) :: first :: rest

/-- How many numbers of 32 bits lie past the reserved ones. -/
def room : Nat := UInt32.size - (FaceId.lastReserved.number + 1)

/-- The number of the next face, as a counter of 32 bits holds it. -/
def counter (table : FaceTable) : UInt32 :=
  .ofNat (FaceId.lastReserved.number + 1 + table.added)

/-- Adds a face under a number of its own, never used before. As long as there is
`room`, the number is the one in the 32 bits of `counter`. Once that is used up a
counter starts over, with numbers that may be in use. -/
def add (table : FaceTable) (face : Face) : FaceId × FaceTable :=
  let id : FaceId := ⟨FaceId.lastReserved.number + 1 + table.added⟩
  (id, ⟨place id face table.faces, table.added + 1⟩)

/-- Adds a face under a reserved number that is free. -/
def addReserved (table : FaceTable) (id : FaceId) (face : Face) : Except FaceError FaceTable :=
  if !id.isReserved then .error (.notReserved id)
  else if table.contains id then .error (.alreadyExists id)
  else .ok { table with faces := place id face table.faces }

def remove (table : FaceTable) (id : FaceId) : FaceTable :=
  { table with faces := table.faces.filter (·.1 != id) }

end FaceTable

/-- Packets handed to faces and not yet collected, in the order they were
sent. -/
structure Outbox where
  sent : List (FaceId × Packet)

namespace Outbox

def empty : Outbox := ⟨[]⟩

def push (outbox : Outbox) (face : FaceId) (packet : Packet) : Outbox :=
  ⟨outbox.sent ++ [(face, packet)]⟩

/-- The packets that wait on one face. -/
def queue (outbox : Outbox) (face : FaceId) : List Packet :=
  (outbox.sent.filter (·.1 == face)).map (·.2)

/-- Collects the packets of one face that pass a test, and leaves the rest. -/
def collect (outbox : Outbox) (face : FaceId) (wanted : Packet → Bool) : List Packet × Outbox :=
  ((outbox.queue face).filter wanted,
    ⟨outbox.sent.filter fun entry => !(entry.1 == face && wanted entry.2)⟩)

def drain (outbox : Outbox) (face : FaceId) : List Packet × Outbox :=
  outbox.collect face fun _ => true

def takeInterests (outbox : Outbox) (face : FaceId) : List Interest × Outbox :=
  let (packets, outbox) := outbox.collect face (·.isInterest)
  (packets.filterMap (·.interest?), outbox)

def takeData (outbox : Outbox) (face : FaceId) : List Data × Outbox :=
  let (packets, outbox) := outbox.collect face (·.isData)
  (packets.filterMap (·.data?), outbox)

end Outbox

end NamedData
