import NamedData.Forwarder.Receiving
import NamedData.Proofs.TimerQueue

namespace NamedData

/-- What can happen to a forwarder: a call of its host, or one part of the time
passing. Advancing the clock fires the timers that are due one after another,
and each of them is an action of its own here. -/
inductive Action where
  | addFace (face : Face)
  | addReservedFace (id : FaceId) (face : Face)
  | removeFace (face : FaceId)
  /-- The host has the routes in hand, and changes them as it likes. -/
  | changeRoutes (change : Fib → Fib)
  | changeStrategies (change : StrategyChoice → StrategyChoice)
  | receiveInterest (face : FaceId) (interest : Interest)
  | receiveData (face : FaceId) (data : Data)
  | receiveUnsolicited (face : FaceId) (data : Data)
  | sendInterest (id : PitId) (face : FaceId) (hint : Option String) (newNonce : Bool)
  | reject (id : PitId)
  | sendData (data : Data) (face : FaceId)
  /-- The host takes packets that wait on a face. -/
  | collect (face : FaceId) (wanted : Packet → Bool)
  /-- The first timer that is due by the limit goes off, if there is one. -/
  | fireNext (limit : Instant)
  /-- The clock moves on once no timer is due any more. -/
  | passTime (time : Instant)

namespace Forwarder

/-- One action. A call that is refused changes nothing. -/
def act (forwarder : Forwarder) : Action → Forwarder
  | .addFace face => (forwarder.addFace face).2
  | .addReservedFace id face => (forwarder.addReservedFace id face).toOption.getD forwarder
  | .removeFace face => (forwarder.removeFace face).toOption.getD forwarder
  | .changeRoutes change => { forwarder with fib := change forwarder.fib }
  | .changeStrategies change => { forwarder with strategies := change forwarder.strategies }
  | .receiveInterest face interest => forwarder.receiveInterest face interest
  | .receiveData face data => forwarder.receiveData face data
  | .receiveUnsolicited face data => forwarder.receiveUnsolicited face data
  | .sendInterest id face hint newNonce => forwarder.sendInterest id face hint newNonce
  | .reject id => forwarder.reject id
  | .sendData data face => forwarder.sendData data face
  | .collect face wanted =>
    { forwarder with outbox := (forwarder.outbox.collect face wanted).2 }
  | .fireNext limit =>
    match forwarder.timers.popDue? limit with
    | none => forwarder
    | some (timer, timers) => { forwarder with timers }.fire timer.payload
  | .passTime time =>
    if (forwarder.timers.popDue? time).isSome then forwarder
    else
      let timers := forwarder.timers.advanceTo time
      { forwarder with timers, deadNonces := forwarder.deadNonces.evictExpired timers.now }

/-- A forwarder with the usual settings to which nothing has happened yet. -/
def usual : Forwarder where
  settings := { strategies := [] }
  deadNonces := .empty (Duration.ofMillis 6000) 65536
  contentStore := .empty 1000
  strategies := .standard
  counters := {}
  nonces := .scrambled 0

theorem ofSettings_usual : ofSettings { strategies := [] } (.scrambled 0) = .ok usual := rfl

/-- One Interest waits for Data from another face. -/
def oneWaits : List Action :=
  [.addFace { isLocal := false }, .addFace { isLocal := false },
    .changeRoutes (·.addNextHop ⟨[[97]]⟩ { face := ⟨257⟩, cost := 1 }),
    .receiveInterest ⟨256⟩ { name := ⟨[[97]]⟩, nonce := 5 }]

def run (forwarder : Forwarder) (actions : List Action) : Forwarder := actions.foldl act forwarder

/-- The packets that an action hands to faces. -/
def sends (forwarder : Forwarder) : Action → List (FaceId × Packet)
  | .collect _ _ => []
  | action => (forwarder.act action).outbox.sent.drop forwarder.outbox.sent.length

theorem act_removeFace {forwarder after : Forwarder} {face : FaceId}
    (removed : forwarder.removeFace face = .ok after) : forwarder.act (.removeFace face) = after := by
  simp only [act, removed, Except.toOption, Option.getD_some]

theorem act_fireNext_of_popDue? {forwarder : Forwarder} {limit : Instant} {timer : Timer TimerEvent}
    {rest : Timers TimerEvent} (popped : forwarder.timers.popDue? limit = some (timer, rest)) :
    forwarder.act (.fireNext limit) = { forwarder with timers := rest }.fire timer.payload := by
  simp only [act, popped]

theorem act_fireNext (forwarder : Forwarder) (limit : Instant) : forwarder.act (.fireNext limit) =
    match forwarder.timers.firstDue? limit with
    | none => forwarder
    | some (timer, timers) => { forwarder with timers }.fire timer.payload := by
  rw [← Timers.popDue?_eq_firstDue?]
  rfl

/-- The same as an action, in a form that evaluates inside a proof. -/
def evaluate (forwarder : Forwarder) : Action → Forwarder
  | .fireNext limit =>
    match forwarder.timers.firstDue? limit with
    | none => forwarder
    | some (timer, timers) => { forwarder with timers }.fire timer.payload
  | .passTime time =>
    if (forwarder.timers.firstDue? time).isSome then forwarder
    else
      let timers := forwarder.timers.advanceTo time
      { forwarder with timers, deadNonces := forwarder.deadNonces.evictExpired timers.now }
  | action => forwarder.act action

theorem act_eq_evaluate (forwarder : Forwarder) (action : Action) :
    forwarder.act action = forwarder.evaluate action := by
  cases action with
  | fireNext limit =>
    rw [act_fireNext]
    rfl
  | passTime time => simp only [act, evaluate, Timers.popDue?_eq_firstDue?]
  | _ => rfl

theorem run_eq_evaluate (forwarder : Forwarder) (actions : List Action) :
    forwarder.run actions = actions.foldl evaluate forwarder := by
  induction actions generalizing forwarder with
  | nil => rfl
  | cons action rest ih =>
    rw [List.foldl_cons, ← act_eq_evaluate]
    exact ih (forwarder.act action)

/-- The states that a forwarder comes to from a first one, those between two
timers of one advance of the clock included. -/
inductive Reach (first : Forwarder) : Forwarder → Prop
  | start : Reach first first
  | next {forwarder : Forwarder} (action : Action) :
      Reach first forwarder → Reach first (forwarder.act action)

theorem Reach.run {first forwarder : Forwarder} (reach : Reach first forwarder)
    (actions : List Action) : Reach first (forwarder.run actions) := by
  induction actions generalizing forwarder with
  | nil => exact reach
  | cons action rest ih => exact ih (.next action reach)

theorem run_append (forwarder : Forwarder) (earlier later : List Action) :
    forwarder.run (earlier ++ later) = (forwarder.run earlier).run later :=
  List.foldl_append

theorem fireDue_of_idle {forwarder : Forwarder} {time : Instant}
    (idle : forwarder.timers.popDue? time = none) : forwarder.fireDue time = forwarder := by
  rw [fireDue]
  split
  · rfl
  · rename_i popped
    rw [idle] at popped
    cases popped

theorem fireDue_of_popped {forwarder : Forwarder} {time : Instant} {timer : Timer TimerEvent}
    {rest : Timers TimerEvent} (popped : forwarder.timers.popDue? time = some (timer, rest)) :
    forwarder.fireDue time = ({ forwarder with timers := rest }.fire timer.payload).fireDue time := by
  rw [fireDue]
  split
  · rename_i idle
    rw [idle] at popped
    cases popped
  · rename_i popped'
    rw [popped] at popped'
    cases popped'
    rfl

/-- No more timers go off than were running, and then none is due. -/
theorem fireDue_eq_run (forwarder : Forwarder) (time : Instant) :
    (∃ count ≤ forwarder.timers.running.size,
      forwarder.fireDue time = forwarder.run (List.replicate count (.fireNext time))) ∧
      (forwarder.fireDue time).timers.popDue? time = none := by
  induction forwarder using fireDue.induct time with
  | case1 forwarder idle =>
    rw [fireDue_of_idle idle]
    exact ⟨⟨0, Nat.zero_le _, rfl⟩, idle⟩
  | case2 forwarder timer timers popped ih =>
    obtain ⟨⟨count, bound, later⟩, idle⟩ := ih
    have fewer := Timers.size_popDue popped
    have unarmed : ({ forwarder with timers }.fire timer.payload).timers.running.size ≤
      timers.running.size := running_fire_le _ _
    rw [fireDue_of_popped popped]
    refine ⟨⟨count + 1, by omega, ?_⟩, idle⟩
    rw [later, List.replicate_succ, run, run, List.foldl_cons, act_fireNext_of_popDue? popped]

/-- Advancing the clock is a run of actions: timers go off until none is due,
then the clock moves on. -/
theorem advanceTo_eq_run (forwarder : Forwarder) (time : Instant) :
    ∃ count ≤ forwarder.timers.running.size, forwarder.advanceTo time =
      forwarder.run (List.replicate count (.fireNext time) ++ [.passTime time]) := by
  obtain ⟨⟨count, bound, fired⟩, idle⟩ := forwarder.fireDue_eq_run time
  refine ⟨count, bound, ?_⟩
  rw [run_append, ← fired]
  simp only [run, List.foldl_cons, List.foldl_nil, act, idle, Option.isSome_none, advanceTo,
    Bool.false_eq_true, if_false]

theorem Reach.advanceTo {first forwarder : Forwarder} (reach : Reach first forwarder)
    (time : Instant) : Reach first (forwarder.advanceTo time) := by
  obtain ⟨count, _, same⟩ := forwarder.advanceTo_eq_run time
  rw [same]
  exact reach.run _

end Forwarder

end NamedData
