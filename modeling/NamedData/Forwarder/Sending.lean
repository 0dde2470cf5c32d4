import NamedData.Forwarder.State

namespace NamedData

namespace Forwarder

/-- Names under `/localhost` never leave through a face that is not local.
Names under `/localhop` do so only while some downstream is local. -/
def violatesScope (forwarder : Forwarder) (entry : PitEntry) (face : FaceId) : Bool :=
  if forwarder.faces.isLocal face then false
  else if Name.localhost.isPrefixOf entry.name then true
  else if Name.localhop.isPrefixOf entry.name then
    !entry.inRecords.any fun record => forwarder.faces.isLocal record.face
  else false

/-- Whether an entry may be sent to a face: no answer is awaited there, some
other downstream still waits, and no scope is crossed. -/
def canForward (forwarder : Forwarder) (id : PitId) (face : FaceId) : Bool :=
  match forwarder.pit.get? id with
  | none => false
  | some entry =>
    !(entry.outRecords.any fun record => record.face == face && forwarder.now < record.expiry) &&
      (entry.inRecords.any fun record => record.face != face && forwarder.now < record.expiry) &&
      !forwarder.violatesScope entry face

def hasUnexpiredOutRecords (forwarder : Forwarder) (id : PitId) : Bool :=
  (forwarder.pit.get? id).any (·.hasUnexpiredOutRecords forwarder.now)

/-- Whether one downstream speaks for an entry before another: those that are
not the out-face come first, then those renewed later. -/
def speaksBefore (outFace : FaceId) (a b : InRecord) : Bool :=
  if (a.face == outFace) == (b.face == outFace) then b.renewed < a.renewed else a.face != outFace

/-- The downstream whose Interest is sent on. Of equal ones it is the last. -/
def speaker? (outFace : FaceId) : List InRecord → Option InRecord
  | [] => none
  | record :: rest =>
    match speaker? outFace rest with
    | none => some record
    | some other => if speaksBefore outFace record other then some record else some other

/-- The face is there to be sent to. -/
def isReachable (forwarder : Forwarder) (face : FaceId) : Bool :=
  face.isValid && forwarder.faces.contains face

/-- Sends an Interest of an entry out of a face, with a nonce of its own when
one is asked for. -/
def emitInterest (forwarder : Forwarder) (id : PitId) (face : FaceId) (interest : Interest)
    (hint : Option String) (newNonce : Bool) : Forwarder :=
  let (interest, nonces) :=
    if newNonce then interest.refreshed forwarder.nonces else (interest, forwarder.nonces)
  { forwarder with
    nonces
    pit := forwarder.pit.modify id fun entry =>
      entry.addOutRecord face interest.nonce forwarder.now (forwarder.lifetimeOf interest)
    outbox := forwarder.outbox.push face
      (.interest { interest with incomingFace := none, targetHint := hint })
    counters := { forwarder.counters with
      outInterests := forwarder.counters.outInterests + 1 } }

/-- The outgoing Interest pipeline. An exhausted hop limit stops the Interest
before anything is recorded, unless the face is local. -/
def sendInterest (forwarder : Forwarder) (id : PitId) (face : FaceId) (hint : Option String)
    (newNonce : Bool) : Forwarder :=
  match forwarder.pit.get? id with
  | none => forwarder
  | some entry =>
    if !forwarder.isReachable face then
      forwarder.count fun counters =>
        { counters with invalidFaceSends := counters.invalidFaceSends + 1 }
    else if forwarder.violatesScope entry face then
      forwarder.count fun counters =>
        { counters with scopeViolations := counters.scopeViolations + 1 }
    else
      match speaker? face entry.inRecords with
      | none => forwarder
      | some record =>
        if record.interest.hopLimit == some 0 && !forwarder.faces.isLocal face then forwarder
        else forwarder.emitInterest id face record.interest hint newNonce

/-- Gives an entry up. Refused while an answer may still come. -/
def reject (forwarder : Forwarder) (id : PitId) : Forwarder :=
  match forwarder.pit.get? id with
  | none => forwarder
  | some entry =>
    if entry.hasUnexpiredOutRecords forwarder.now then
      forwarder.count fun counters =>
        { counters with strategyViolations := counters.strategyViolations + 1 }
    else
      ((forwarder.count fun counters =>
        { counters with rejectedInterests := counters.rejectedInterests + 1 }).cancelTimers
          id).setStragglerTimer id false none

/-- The outgoing Data pipeline. -/
def sendData (forwarder : Forwarder) (data : Data) (face : FaceId) : Forwarder :=
  if !forwarder.isReachable face then
    forwarder.count fun counters =>
      { counters with invalidFaceSends := counters.invalidFaceSends + 1 }
  else if !forwarder.faces.isLocal face && Name.localhost.isPrefixOf data.name then
    forwarder.count fun counters =>
      { counters with scopeViolations := counters.scopeViolations + 1 }
  else
    { forwarder with
      outbox := forwarder.outbox.push face (.data { data with incomingFace := none })
      counters := { forwarder.counters with outData := forwarder.counters.outData + 1 } }

end Forwarder

namespace Strategy

/-- Sends an entry to every next hop that may have it. -/
def flood (forwarder : Forwarder) (id : PitId) (hops : List NextHop) : Forwarder :=
  hops.foldl (fun forwarder hop =>
    if forwarder.canForward id hop.face then
      forwarder.sendInterest id hop.face hop.targetHint false
    else forwarder) forwarder

/-- Decides on an Interest that the cache could not answer, new or renewed. An
entry with no answer to wait for afterwards is rejected. -/
def afterReceiveInterest (strategy : Strategy) (forwarder : Forwarder) (route : FibEntry)
    (id : PitId) : Forwarder :=
  match strategy with
  | multicast =>
    let flooded := flood forwarder id route.nextHops
    if flooded.hasUnexpiredOutRecords id then flooded else flooded.reject id
  | bestRoute _ =>
    if forwarder.hasUnexpiredOutRecords id then forwarder
    else
      match route.nextHops.find? fun hop => forwarder.canForward id hop.face with
      | some hop => forwarder.sendInterest id hop.face hop.targetHint false
      | none => forwarder.reject id

/-- Data is about to satisfy the entry. Neither strategy minds. -/
def beforeSatisfyInterest (_strategy : Strategy) (forwarder : Forwarder) (_id : PitId) :
    Forwarder := forwarder

/-- The wait for Data is over. Best-route then makes the next hops it tried
dearer. -/
def beforeExpireInterest (strategy : Strategy) (forwarder : Forwarder) (id : PitId) : Forwarder :=
  match strategy with
  | multicast => forwarder
  | bestRoute penalty =>
    match forwarder.pit.get? id with
    | none => forwarder
    | some entry =>
      entry.outRecords.foldl (fun forwarder record =>
        forwarder.bumpCost entry.name record.face penalty) forwarder

end Strategy

end NamedData
