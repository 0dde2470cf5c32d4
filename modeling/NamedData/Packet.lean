import NamedData.Name
import NamedData.Time

namespace NamedData

/-- A face is named by a number. Number 0 stands for no face, and the numbers
up to 255 are set aside for the host's own faces. -/
structure FaceId where
  number : Nat
  deriving DecidableEq, Ord

namespace FaceId

def invalid : FaceId := ⟨0⟩

/-- The annotation of Data that was served from the cache. -/
def contentStore : FaceId := ⟨254⟩

def lastReserved : FaceId := ⟨255⟩

def isValid (face : FaceId) : Bool := face != invalid

def isReserved (face : FaceId) : Bool := face.isValid && face.number ≤ lastReserved.number

def toText (face : FaceId) : String := toString face.number

end FaceId

/-- Two Interests with one name are the same request when their nonces agree. -/
abbrev Nonce := UInt32

structure Interest where
  name : Name
  nonce : Nonce
  mustBeFresh : Bool := false
  lifetime : Option Duration := none
  hopLimit : Option UInt8 := none
  /-- The link address of the receiver it is meant for. -/
  targetHint : Option String := none
  /-- The face it came in on, as noted by the forwarder. -/
  incomingFace : Option FaceId := none
  deriving DecidableEq

structure Data where
  name : Name
  /-- How long it may answer Interests that ask for fresh Data. Without a
  period it never does. -/
  freshness : Option Duration := none
  content : List UInt8
  incomingFace : Option FaceId := none
  deriving DecidableEq

inductive Packet where
  | interest (interest : Interest)
  | data (data : Data)
  deriving DecidableEq

/-- An Interest is answered by any Data whose name extends its own. -/
def Interest.isAnsweredBy (interest : Interest) (data : Data) : Bool :=
  interest.name.isPrefixOf data.name

namespace Packet

def name : Packet → Name
  | .interest request => request.name
  | .data reply => reply.name

def isInterest : Packet → Bool
  | .interest _ => true
  | .data _ => false

def isData (packet : Packet) : Bool := !packet.isInterest

def interest? : Packet → Option Interest
  | .interest request => some request
  | .data _ => none

def data? : Packet → Option Data
  | .interest _ => none
  | .data reply => some reply

end Packet

end NamedData
