import NamedData.Forwarder.Settling

namespace NamedData

/-- What an arriving Interest turns out to be. -/
inductive Arrival where
  /-- It came in on a face that is not there. -/
  | fromNowhere
  /-- It was meant for another receiver on the link. -/
  | foreign
  /-- It may travel no further. -/
  | exhausted
  /-- It asks from outside for what stays on the host. -/
  | outOfScope
  /-- It was here before. -/
  | looped
  /-- Another downstream sent the same request. -/
  | duplicate (interest : Interest)
  /-- It asks for something anew. -/
  | request (interest : Interest)
  deriving DecidableEq

namespace Forwarder

/-- Where the nonce of an Interest was seen in the entry of its name. -/
def sighting (forwarder : Forwarder) (face : FaceId) (interest : Interest) : NonceSighting :=
  match (forwarder.pit.find? interest.name).bind forwarder.pit.get? with
  | some entry => entry.findNonce interest.nonce face
  | none => ⟨false, false, false, false⟩

/-- A hinted Interest is refused when the face has an address and the hint is
another one. -/
def isForeign (forwarder : Forwarder) (face : FaceId) (interest : Interest) : Bool :=
  match interest.targetHint, forwarder.faces.address? face with
  | some target, some own => own != target
  | _, _ => false

/-- An Interest as it is kept: the hint has done its work, the face is noted,
and a hop is taken off the limit unless the sender is on the host. -/
def admitted (forwarder : Forwarder) (face : FaceId) (interest : Interest) : Interest :=
  { interest with
    incomingFace := some face
    targetHint := none
    hopLimit :=
      if forwarder.faces.isLocal face then interest.hopLimit else interest.hopLimit.map (· - 1) }

/-- Judges an arriving Interest. The first reason to turn it away wins. -/
def judge (forwarder : Forwarder) (face : FaceId) (interest : Interest) : Arrival :=
  let admitted := forwarder.admitted face interest
  if !forwarder.faces.contains face then .fromNowhere
  else if forwarder.isForeign face interest then .foreign
  else if interest.hopLimit == some 0 then .exhausted
  else if !forwarder.faces.isLocal face && Name.localhost.isPrefixOf interest.name then .outOfScope
  else if forwarder.deadNonces.contains interest.name interest.nonce then .looped
  else if (forwarder.sighting face interest).isLoop then .looped
  else if (forwarder.sighting face interest).isDuplicate then .duplicate admitted
  else .request admitted

def addInRecord (forwarder : Forwarder) (id : PitId) (face : FaceId) (interest : Interest) :
    Forwarder :=
  forwarder.updateEntry id fun entry =>
    entry.addInRecord face interest forwarder.now (forwarder.lifetimeOf interest)

/-- A second downstream waits for the same Data, and the strategy has nothing
new to forward. -/
def joinDuplicate (forwarder : Forwarder) (face : FaceId) (interest : Interest) : Forwarder :=
  let (id, pit) := forwarder.pit.insert interest.name
  let counted := { forwarder with pit }.count fun counters =>
    { counters with duplicateNonces := counters.duplicateNonces + 1 }
  (counted.addInRecord id face interest).setUnsatisfyTimer id

/-- The cache has the answer: it goes back, and the entry is settled. -/
def answerFromCache (forwarder : Forwarder) (id : PitId) (face : FaceId) (interest : Interest)
    (data : Data) : Forwarder :=
  let data := { data with incomingFace := some FaceId.contentStore }
  let recorded := forwarder.addInRecord id face interest
  let told := (recorded.strategies.effective interest.name).beforeSatisfyInterest recorded id
  ((told.updateEntry id (·.clearInRecords)).setStragglerTimer id true data.freshness).sendData
    data face

/-- The cache has no answer: the downstream waits and the strategy decides. -/
def askOnward (forwarder : Forwarder) (id : PitId) (face : FaceId) (interest : Interest) :
    Forwarder :=
  let waiting := (forwarder.addInRecord id face interest).setUnsatisfyTimer id
  (waiting.strategies.effective interest.name).afterReceiveInterest waiting
    (waiting.fib.longestPrefixMatch interest.name) id

/-- Handles a new or renewed request. The cache is asked only while no
downstream of the entry waits: one that waits has missed it before. -/
def handleRequest (forwarder : Forwarder) (face : FaceId) (interest : Interest) : Forwarder :=
  let (id, pit) := forwarder.pit.insert interest.name
  let reopened := { forwarder with pit }.cancelTimers id
  if (reopened.pit.get? id).any (·.hasUnexpiredInRecords reopened.now) then
    reopened.askOnward id face interest
  else
    match reopened.contentStore.find? interest reopened.now with
    | some data =>
      (reopened.count fun counters => { counters with cacheHits := counters.cacheHits + 1 }
        ).answerFromCache id face interest data
    | none =>
      (reopened.count fun counters => { counters with cacheMisses := counters.cacheMisses + 1 }
        ).askOnward id face interest

/-- The incoming Interest pipeline. -/
def receiveInterest (forwarder : Forwarder) (face : FaceId) (interest : Interest) : Forwarder :=
  let received := forwarder.count fun counters =>
    { counters with inInterests := counters.inInterests + 1 }
  match received.judge face interest with
  | .fromNowhere | .exhausted => received
  | .foreign => received.count fun counters =>
      { counters with foreignTargetDrops := counters.foreignTargetDrops + 1 }
  | .outOfScope => received.count fun counters =>
      { counters with scopeViolations := counters.scopeViolations + 1 }
  | .looped => received.count fun counters =>
      { counters with interestLoops := counters.interestLoops + 1 }
  | .duplicate interest => received.joinDuplicate face interest
  | .request interest => received.handleRequest face interest

/-- Data that nobody waits for. It is kept only when it comes from the host. -/
def receiveUnsolicited (forwarder : Forwarder) (face : FaceId) (data : Data) : Forwarder :=
  let counted := forwarder.count fun counters =>
    { counters with unsolicitedData := counters.unsolicitedData + 1 }
  if counted.faces.isLocal face then
    { counted with contentStore := counted.contentStore.insert data true counted.now }
  else counted

/-- Puts a face into an ascending list, once. -/
def insertFace (face : FaceId) : List FaceId → List FaceId
  | [] => [face]
  | first :: rest =>
    if face.number < first.number then face :: first :: rest
    else if face = first then first :: rest
    else first :: insertFace face rest

/-- The faces that wait for Data in one of the entries, in ascending order. -/
def waitingFaces (forwarder : Forwarder) (ids : List PitId) : List FaceId :=
  let records := (ids.filterMap forwarder.pit.get?).flatMap (·.inRecords)
  ((records.filter fun record => forwarder.now < record.expiry).map (·.face)).foldr insertFace []

/-- Settles an entry with Data from a face. That face has answered, so its record
goes and its nonce is noted. -/
def satisfy (source : FaceId) (data : Data) (forwarder : Forwarder) (id : PitId) : Forwarder :=
  let stopped := forwarder.cancelTimers id
  match stopped.pit.get? id with
  | none => stopped
  | some entry =>
    let told := (stopped.strategies.effective entry.name).beforeSatisfyInterest stopped id
    let noted := told.noteDeadNonces id true data.freshness (some source)
    (noted.updateEntry id fun entry =>
      entry.clearInRecords.deleteOutRecord source).setStragglerTimer id true data.freshness

/-- Data that some entries wait for. It is cached, settles them all, and goes
once to each waiting face except the one it came from. -/
def receiveSolicited (forwarder : Forwarder) (face : FaceId) (data : Data) (ids : List PitId) :
    Forwarder :=
  let cached := { forwarder with
    contentStore := forwarder.contentStore.insert data false forwarder.now }
  let settled := ids.foldl (satisfy face data) cached
  ((cached.waitingFaces ids).filter (· != face)).foldl
    (fun forwarder downstream => forwarder.sendData data downstream) settled

/-- The incoming Data pipeline. -/
def receiveData (forwarder : Forwarder) (face : FaceId) (data : Data) : Forwarder :=
  let received := forwarder.count fun counters => { counters with inData := counters.inData + 1 }
  let noted := { data with incomingFace := some face }
  if !received.faces.contains face then received
  else if !received.faces.isLocal face && Name.localhost.isPrefixOf data.name then
    received.count fun counters =>
      { counters with scopeViolations := counters.scopeViolations + 1 }
  else
    match received.pit.dataMatches data.name with
    | [] => received.receiveUnsolicited face noted
    | ids => received.receiveSolicited face noted ids

end Forwarder

end NamedData
