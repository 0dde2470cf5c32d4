import NamedData.Document
import NamedData.Name.Uri
import NamedData.Packet

namespace NamedData

def Name.toDocument (name : Name) : Document := .text name.toUri

def Name.ofDocument? (document : Document) : Option Name :=
  match document with
  | .text uri =>
    match Name.ofUri uri with
    | .ok name => some name
    | .error _ => none
  | _ => none

def Duration.toDocument (span : Duration) : Document :=
  .table [("secs", .integer span.seconds), ("nanos", .integer span.subsecond)]

/-- Seconds and nanoseconds, both given. A billion nanoseconds and more carry
over, as long as the seconds have room. -/
def Duration.ofParts? (seconds nanos : Document) : Option Duration := do
  let seconds ← seconds.natural? Document.wordLimit
  let nanos ← nanos.natural? Document.halfLimit
  if seconds + nanos / 1000000000 ≤ Document.wordLimit then some (Duration.ofSeconds seconds nanos)
  else none

/-- A span allows no member besides its two. -/
def Duration.ofDocument? : Document → Option Duration
  | .table [(first, a), (second, b)] =>
    if first = "secs" ∧ second = "nanos" then ofParts? a b
    else if first = "nanos" ∧ second = "secs" then ofParts? b a
    else none
  | .sequence [seconds, nanos] => ofParts? seconds nanos
  | _ => none

def Interest.toDocument (interest : Interest) : Document :=
  .table ([
    ("name", interest.name.toDocument),
    ("nonce", .integer interest.nonce.toNat),
    ("must_be_fresh", .boolean interest.mustBeFresh),
    ("interest_lifetime", Document.ofOption Duration.toDocument interest.lifetime),
    ("hop_limit", Document.ofOption (fun limit => .integer limit.toNat) interest.hopLimit)] ++
    match interest.targetHint with
    | some hint => [("target_hint", .text hint)]
    | none => [])

/-- Reads an Interest. The face it came in on is never written, so none is
read. -/
def Interest.ofDocument? (document : Document) : Option Interest := do
  let members ← document.members? false
    ["name", "nonce", "must_be_fresh", "interest_lifetime", "hop_limit", "target_hint"]
  let name ← members.required "name" Name.ofDocument?
  let nonce ← members.required "nonce" (Document.natural? Document.halfLimit)
  let mustBeFresh ← members.required "must_be_fresh" Document.boolean?
  let lifetime ← members.optionalInTable "interest_lifetime" Duration.ofDocument?
  let hopLimit ← members.optionalInTable "hop_limit" (Document.natural? 255)
  let targetHint ← members.optional "target_hint" Document.text?
  return {
    name, mustBeFresh, lifetime, targetHint
    nonce := UInt32.ofNat nonce
    hopLimit := hopLimit.map UInt8.ofNat }

def Data.toDocument (data : Data) : Document :=
  .table [
    ("name", data.name.toDocument),
    ("freshness_period", Document.ofOption Duration.toDocument data.freshness),
    ("content", .sequence (data.content.map fun byte => .integer byte.toNat))]

def Data.ofDocument? (document : Document) : Option Data := do
  let members ← document.members? false ["name", "freshness_period", "content"]
  let name ← members.required "name" Name.ofDocument?
  let freshness ← members.optionalInTable "freshness_period" Duration.ofDocument?
  let content ← members.required "content" (Document.listOf? (Document.natural? 255))
  return { name, freshness, content := content.map UInt8.ofNat }

/-- A packet is written under the name of its kind. -/
def Packet.toDocument : Packet → Document
  | .interest request => .table [("Interest", request.toDocument)]
  | .data reply => .table [("Data", reply.toDocument)]

def Packet.ofDocument? : Document → Option Packet
  | .table [(kind, content)] =>
    if kind = "Interest" then (Interest.ofDocument? content).map .interest
    else if kind = "Data" then (Data.ofDocument? content).map .data
    else none
  | _ => none

end NamedData
