import NamedData.ContentStore
import NamedData.Counters
import NamedData.DeadNonceList
import NamedData.Face
import NamedData.Nonce
import NamedData.Pit
import NamedData.Strategy

namespace NamedData

/-- What a timer does to its entry: end the wait for Data, or clear away an
entry that is settled already. -/
inductive TimerEvent where
  | unsatisfy (entry : PitId)
  | straggler (entry : PitId) (satisfied : Bool) (freshness : Option Duration)
  deriving DecidableEq

/-- The whole state of a forwarder. Every operation is a function from one
state to the next, and what it sends is found in the outbox. -/
structure Forwarder where
  settings : Settings
  faces : FaceTable := .empty
  fib : Fib := .empty
  pit : Pit := .empty
  deadNonces : DeadNonceList
  contentStore : ContentStore
  strategies : StrategyChoice
  timers : Timers TimerEvent := .empty
  counters : Counters
  nonces : NonceSource
  outbox : Outbox := .empty

namespace Forwarder

/-- A forwarder around a content store and counters that are there already. -/
def withParts (settings : Settings) (contentStore : ContentStore) (counters : Counters)
    (nonces : NonceSource) : Except StrategyError Forwarder :=
  match StrategyChoice.ofSettings settings.strategies with
  | .error error => .error error
  | .ok strategies => .ok {
      settings, contentStore, strategies, counters, nonces
      deadNonces := .empty settings.nonceLifetime settings.deadNonceCapacity }

def ofSettings (settings : Settings) (nonces : NonceSource) : Except StrategyError Forwarder :=
  withParts settings (.empty settings.contentStoreCapacity) {} nonces

def now (forwarder : Forwarder) : Instant := forwarder.timers.now

/-- When the next timer is due, for hosts that sleep between events. -/
def nextDeadline? (forwarder : Forwarder) : Option Instant := forwarder.timers.nextDeadline?

def addFace (forwarder : Forwarder) (face : Face) : FaceId × Forwarder :=
  let (id, faces) := forwarder.faces.add face
  (id, { forwarder with faces })

def addReservedFace (forwarder : Forwarder) (id : FaceId) (face : Face) :
    Except FaceError Forwarder :=
  match forwarder.faces.addReserved id face with
  | .ok faces => .ok { forwarder with faces }
  | .error error => .error error

def addRoute (forwarder : Forwarder) (under : Name) (hop : NextHop) : Forwarder :=
  { forwarder with fib := forwarder.fib.addNextHop under hop }

def removeRoute (forwarder : Forwarder) (under : Name) (face : FaceId) : Forwarder :=
  { forwarder with fib := forwarder.fib.removeNextHop under face }

/-- Makes the closest route of a name through a face dearer. -/
def bumpCost (forwarder : Forwarder) (name : Name) (face : FaceId) (delta : Cost) : Forwarder :=
  { forwarder with fib := forwarder.fib.bumpCost name face delta }

def setStrategy (forwarder : Forwarder) (under : Name) (strategy : String) :
    Except StrategyError Forwarder :=
  match forwarder.strategies.insert under strategy with
  | .ok strategies => .ok { forwarder with strategies }
  | .error error => .error error

def unsetStrategy (forwarder : Forwarder) (under : Name) : Forwarder :=
  { forwarder with strategies := forwarder.strategies.erase under }

def count (forwarder : Forwarder) (change : Counters → Counters) : Forwarder :=
  { forwarder with counters := change forwarder.counters }

def updateEntry (forwarder : Forwarder) (id : PitId) (change : PitEntry → PitEntry) : Forwarder :=
  { forwarder with pit := forwarder.pit.modify id change }

/-- An Interest without a lifetime gets the one from the settings. -/
def lifetimeOf (forwarder : Forwarder) (interest : Interest) : Duration :=
  interest.lifetime.getD forwarder.settings.interestLifetime

/-- Stops the timer that a slot of an entry holds. -/
def stopTimer (forwarder : Forwarder) (slot : Option TimerId) : Forwarder :=
  match slot with
  | some timer => { forwarder with timers := forwarder.timers.cancel timer }
  | none => forwarder

/-- Arms the timer that ends the wait, for when the last downstream stops
waiting. -/
def setUnsatisfyTimer (forwarder : Forwarder) (id : PitId) : Forwarder :=
  match forwarder.pit.get? id with
  | none => forwarder
  | some entry =>
    match entry.lastInRecordExpiry? with
    | none => forwarder
    | some expiry =>
      let stopped := forwarder.stopTimer entry.unsatisfyTimer
      let (timer, timers) := stopped.timers.scheduleAt expiry (.unsatisfy id)
      { stopped with timers }.updateEntry id fun entry =>
        { entry with unsatisfyTimer := some timer }

/-- Arms the timer that clears away a settled entry. Until it fires the entry
still catches stragglers. -/
def setStragglerTimer (forwarder : Forwarder) (id : PitId) (satisfied : Bool)
    (freshness : Option Duration) : Forwarder :=
  match forwarder.pit.get? id with
  | none => forwarder
  | some entry =>
    let stopped := forwarder.stopTimer entry.stragglerTimer
    let (timer, timers) := stopped.timers.schedule forwarder.settings.stragglerDelay
      (.straggler id satisfied freshness)
    { stopped with timers }.updateEntry id fun entry =>
      { entry with stragglerTimer := some timer }

def cancelTimers (forwarder : Forwarder) (id : PitId) : Forwarder :=
  match forwarder.pit.get? id with
  | none => forwarder
  | some entry =>
    ((forwarder.stopTimer entry.unsatisfyTimer).stopTimer entry.stragglerTimer).updateEntry id
      fun entry => { entry with unsatisfyTimer := none, stragglerTimer := none }

/-- Whether the nonces of an entry have to outlive it. Those of an unsatisfied
one always do. Those of a satisfied one do when fresh Data was asked for and
the Data goes stale before the list would forget them: a late copy of the
Interest could then miss the cache. -/
def mustNoteNonces (forwarder : Forwarder) (entry : PitEntry) (satisfied : Bool)
    (freshness : Option Duration) : Bool :=
  !satisfied ||
    (entry.mustBeFresh && freshness.any fun period => period < forwarder.deadNonces.lifetime)

/-- Notes the nonces that an entry sent out, on one face or on all. -/
def noteDeadNonces (forwarder : Forwarder) (id : PitId) (satisfied : Bool)
    (freshness : Option Duration) (outFace : Option FaceId) : Forwarder :=
  match forwarder.pit.get? id with
  | none => forwarder
  | some entry =>
    if forwarder.mustNoteNonces entry satisfied freshness then
      let noted := entry.outRecords.filter fun record => outFace.all (record.face == ·)
      { forwarder with
        deadNonces := noted.foldl
          (fun list record => list.add entry.name record.nonce forwarder.now)
          forwarder.deadNonces }
    else forwarder

end Forwarder

end NamedData
