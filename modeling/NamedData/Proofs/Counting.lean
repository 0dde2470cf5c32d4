import NamedData.Proofs.RouteFaces

namespace NamedData

/-- The counters of a forwarder. -/
inductive Counter where
  | inInterests
  | outInterests
  | inData
  | outData
  | interestLoops
  | duplicateNonces
  | foreignTargetDrops
  | cacheHits
  | cacheMisses
  | satisfiedInterests
  | unsatisfiedInterests
  | rejectedInterests
  | unsolicitedData
  | scopeViolations
  | invalidFaceSends
  | strategyViolations
  deriving DecidableEq

/-- The counters of what a host or a strategy must not do. -/
def Counter.faults : List Counter := [.invalidFaceSends, .strategyViolations]

namespace Counters

def value (counters : Counters) : Counter → Nat
  | .inInterests => counters.inInterests
  | .outInterests => counters.outInterests
  | .inData => counters.inData
  | .outData => counters.outData
  | .interestLoops => counters.interestLoops
  | .duplicateNonces => counters.duplicateNonces
  | .foreignTargetDrops => counters.foreignTargetDrops
  | .cacheHits => counters.cacheHits
  | .cacheMisses => counters.cacheMisses
  | .satisfiedInterests => counters.satisfiedInterests
  | .unsatisfiedInterests => counters.unsatisfiedInterests
  | .rejectedInterests => counters.rejectedInterests
  | .unsolicitedData => counters.unsolicitedData
  | .scopeViolations => counters.scopeViolations
  | .invalidFaceSends => counters.invalidFaceSends
  | .strategyViolations => counters.strategyViolations

/-- One counter goes up by one. -/
def raise (counters : Counters) : Counter → Counters
  | .inInterests => { counters with inInterests := counters.inInterests + 1 }
  | .outInterests => { counters with outInterests := counters.outInterests + 1 }
  | .inData => { counters with inData := counters.inData + 1 }
  | .outData => { counters with outData := counters.outData + 1 }
  | .interestLoops => { counters with interestLoops := counters.interestLoops + 1 }
  | .duplicateNonces => { counters with duplicateNonces := counters.duplicateNonces + 1 }
  | .foreignTargetDrops => { counters with foreignTargetDrops := counters.foreignTargetDrops + 1 }
  | .cacheHits => { counters with cacheHits := counters.cacheHits + 1 }
  | .cacheMisses => { counters with cacheMisses := counters.cacheMisses + 1 }
  | .satisfiedInterests => { counters with satisfiedInterests := counters.satisfiedInterests + 1 }
  | .unsatisfiedInterests =>
    { counters with unsatisfiedInterests := counters.unsatisfiedInterests + 1 }
  | .rejectedInterests => { counters with rejectedInterests := counters.rejectedInterests + 1 }
  | .unsolicitedData => { counters with unsolicitedData := counters.unsolicitedData + 1 }
  | .scopeViolations => { counters with scopeViolations := counters.scopeViolations + 1 }
  | .invalidFaceSends => { counters with invalidFaceSends := counters.invalidFaceSends + 1 }
  | .strategyViolations => { counters with strategyViolations := counters.strategyViolations + 1 }

theorem value_raise (counters : Counters) (raised counter : Counter) :
    (counters.raise raised).value counter =
      counters.value counter + if counter = raised then 1 else 0 := by
  cases raised <;> cases counter <;> rfl

/-- No counter has gone down, and those of a list stand still. -/
structure Grows (still : List Counter) (before after : Counters) : Prop where
  le : ∀ counter, before.value counter ≤ after.value counter
  same : ∀ counter ∈ still, after.value counter = before.value counter

variable {still : List Counter} {first before after : Counters}

theorem Grows.refl (counters : Counters) : Grows still counters counters :=
  ⟨fun _ => Nat.le_refl _, fun _ _ => rfl⟩

theorem Grows.trans (earlier : Grows still first before) (later : Grows still before after) :
    Grows still first after :=
  ⟨fun counter => Nat.le_trans (earlier.le counter) (later.le counter),
    fun counter listed => (later.same counter listed).trans (earlier.same counter listed)⟩

theorem Grows.raise (grows : Grows still first before) (raised : Counter) (apart : raised ∉ still) :
    Grows still first (before.raise raised) := by
  refine grows.trans ⟨fun counter => ?_, fun counter listed => ?_⟩
  · rw [value_raise]
    exact Nat.le_add_right _ _
  · have other : counter ≠ raised := fun same => apart (same ▸ listed)
    rw [value_raise, if_neg other]
    rfl

/-- What is no fault is counted though faults stand still. -/
theorem Grows.tally (grows : Grows still first before) (only : still ⊆ Counter.faults)
    (raised : Counter) (harmless : raised ∉ Counter.faults) :
    Grows still first (before.raise raised) :=
  grows.raise raised fun listed => harmless (only listed)

end Counters

open Counters

namespace Forwarder

variable {still : List Counter} {forwarder before : Forwarder} {id : PitId} {face : FaceId}

theorem counters_cancelTimers : (forwarder.cancelTimers id).counters = forwarder.counters := by
  obtain ⟨_, _, same⟩ := forwarder.cancelTimers_frame id
  rw [same]

theorem counters_setUnsatisfyTimer :
    (forwarder.setUnsatisfyTimer id).counters = forwarder.counters := by
  obtain ⟨_, _, same⟩ := forwarder.setUnsatisfyTimer_frame id
  rw [same]

theorem counters_setStragglerTimer (satisfied : Bool) (freshness : Option Duration) :
    (forwarder.setStragglerTimer id satisfied freshness).counters = forwarder.counters := by
  obtain ⟨_, _, same⟩ := forwarder.setStragglerTimer_frame id satisfied freshness
  rw [same]

theorem grows_sendInterest (only : still ⊆ Counter.faults)
    (reachable : .invalidFaceSends ∈ still → forwarder.isReachable face = true)
    (hint : Option String) (newNonce : Bool) : Grows still forwarder.counters
      (forwarder.sendInterest id face hint newNonce).counters := by
  have grows : Grows still forwarder.counters forwarder.counters := .refl _
  unfold sendInterest
  split
  · exact grows
  · split
    · rename_i absent
      exact grows.raise .invalidFaceSends fun listed => by simp [reachable listed] at absent
    · split
      · exact grows.tally only .scopeViolations (by decide)
      · split
        · exact grows
        · split
          · exact grows
          · rw [emitInterest_eq]
            exact grows.tally only .outInterests (by decide)

theorem grows_sendData (only : still ⊆ Counter.faults)
    (reachable : .invalidFaceSends ∈ still → forwarder.isReachable face = true) (data : Data) :
    Grows still forwarder.counters (forwarder.sendData data face).counters := by
  have grows : Grows still forwarder.counters forwarder.counters := .refl _
  unfold sendData
  split
  · rename_i absent
    exact grows.raise .invalidFaceSends fun listed => by simp [reachable listed] at absent
  · split
    · exact grows.tally only .scopeViolations (by decide)
    · exact grows.tally only .outData (by decide)

theorem grows_reject (only : still ⊆ Counter.faults)
    (idle : .strategyViolations ∈ still → forwarder.hasUnexpiredOutRecords id = false) :
    Grows still forwarder.counters (forwarder.reject id).counters := by
  have grows : Grows still forwarder.counters forwarder.counters := .refl _
  unfold reject
  split
  · exact grows
  · rename_i entry found
    split
    · rename_i awaits
      refine grows.raise .strategyViolations fun listed => ?_
      have unawaited := idle listed
      rw [hasUnexpiredOutRecords, found, Option.any_some, awaits] at unawaited
      cases unawaited
    · rw [counters_setStragglerTimer, counters_cancelTimers]
      exact grows.tally only .rejectedInterests (by decide)

/-- A strategy rejects only what awaits no answer, and sends only to next hops. -/
theorem grows_afterReceiveInterest (only : still ⊆ Counter.faults) (strategy : Strategy)
    {route : FibEntry} (reachable : .invalidFaceSends ∈ still →
      ∀ hop ∈ route.nextHops, forwarder.isReachable hop.face = true) :
    Grows still forwarder.counters
      (strategy.afterReceiveInterest forwarder route id).counters := by
  refine (@afterReceiveInterest_keeps_through forwarder (fun here => here.faces = forwarder.faces ∧
    Grows still forwarder.counters here.counters) id strategy route ?_ ?_ ⟨rfl, .refl _⟩).2
  · rintro here hop member ⟨faces, grows⟩ _
    refine ⟨(here.local_sendInterest id hop.face hop.targetHint false).faces.trans faces, ?_⟩
    refine grows.trans (grows_sendInterest only (fun listed => ?_) hop.targetHint false)
    rw [isReachable, faces]
    exact reachable listed hop member
  · rintro here ⟨faces, grows⟩ idle
    refine ⟨?_, grows.trans (grows_reject only fun _ => idle)⟩
    exact (Steps.fixed (@Steps.reject (.reject id) here here .refl id)).1.trans faces

/-- Every next hop for a name can be sent to. -/
def Leads (forwarder : Forwarder) (name : Name) : Prop :=
  ∀ hop ∈ (forwarder.fib.longestPrefixMatch name).nextHops, forwarder.isReachable hop.face = true

variable {interest : Interest} {data : Data}

theorem grows_askOnward (only : still ⊆ Counter.faults)
    (leads : .invalidFaceSends ∈ still → forwarder.Leads interest.name) :
    Grows still forwarder.counters (forwarder.askOnward id face interest).counters := by
  obtain ⟨_, _, armed⟩ := (forwarder.addInRecord id face interest).setUnsatisfyTimer_frame id
  unfold askOnward
  dsimp only
  refine .trans ?_ (grows_afterReceiveInterest only _ fun listed => ?_)
  · rw [armed]
    exact .refl _
  · rw [armed]
    exact leads listed

theorem grows_answerFromCache (only : still ⊆ Counter.faults)
    (reachable : .invalidFaceSends ∈ still → forwarder.isReachable face = true) :
    Grows still forwarder.counters (forwarder.answerFromCache id face interest data).counters := by
  obtain ⟨_, _, lingers⟩ := ((forwarder.addInRecord id face interest).updateEntry id
    (·.clearInRecords)).setStragglerTimer_frame id true data.freshness
  unfold answerFromCache
  dsimp only [Strategy.beforeSatisfyInterest]
  refine .trans ?_ (grows_sendData only (fun listed => ?_) _)
  · rw [lingers]
    exact .refl _
  · rw [lingers]
    exact reachable listed

theorem grows_handleRequest (only : still ⊆ Counter.faults)
    (safe : .invalidFaceSends ∈ still →
      forwarder.isReachable face = true ∧ forwarder.Leads interest.name) :
    Grows still forwarder.counters (forwarder.handleRequest face interest).counters := by
  obtain ⟨_, _, reopened⟩ := forwarder.reopen_frame interest.name
  have begins : Grows still forwarder.counters (forwarder.reopen interest.name).counters := by
    rw [reopened]
    exact .refl _
  have safe' : .invalidFaceSends ∈ still → (forwarder.reopen interest.name).isReachable face = true ∧
      (forwarder.reopen interest.name).Leads interest.name := by
    rw [reopened]
    exact safe
  unfold handleRequest
  dsimp only
  rw [← reopen]
  split
  · exact begins.trans (grows_askOnward only fun listed => (safe' listed).2)
  · split
    · refine .trans ?_ (grows_answerFromCache only fun listed => (safe' listed).1)
      exact begins.tally only .cacheHits (by decide)
    · refine .trans ?_ (grows_askOnward only fun listed => (safe' listed).2)
      exact begins.tally only .cacheMisses (by decide)

theorem Sound.isReachable (sound : forwarder.Sound) (present : forwarder.faces.contains face = true) :
    forwarder.isReachable face = true :=
  Bool.and_eq_true_iff.mpr ⟨sound.valid present, present⟩

theorem Sound.leads (sound : forwarder.Sound) (routed : forwarder.Routed) (name : Name) :
    forwarder.Leads name := fun _ member => sound.isReachable (routed.longestPrefixMatch member)

/-- While faces and routes are in order, what comes in is no fault. -/
theorem grows_receiveInterest (only : still ⊆ Counter.faults)
    (safe : .invalidFaceSends ∈ still → forwarder.Sound ∧ forwarder.Routed) :
    Grows still forwarder.counters (forwarder.receiveInterest face interest).counters := by
  have received : Grows still forwarder.counters forwarder.received.counters :=
    (Grows.refl _).tally only .inInterests (by decide)
  unfold receiveInterest
  dsimp only
  rw [judge_count]
  split
  · exact received
  · exact received
  · exact received.tally only .foreignTargetDrops (by decide)
  · exact received.tally only .scopeViolations (by decide)
  · exact received.tally only .interestLoops (by decide)
  · rw [joinDuplicate_eq, counters_setUnsatisfyTimer]
    exact received.tally only .duplicateNonces (by decide)
  · rename_i kept judged
    refine received.trans (grows_handleRequest only fun listed => ?_)
    obtain ⟨sound, routed⟩ := safe listed
    exact ⟨sound.isReachable (judge_letIn (Or.inr judged)).2, sound.leads routed kept.name⟩

/-- Settling entries concerns them, their timers and the dead nonces, nothing else. -/
theorem satisfyAll_frame (source : FaceId) (data : Data) (ids : List PitId) :
    ∃ pit timers deadNonces, ids.foldl (satisfy source data) forwarder =
      { forwarder with pit, timers, deadNonces } := by
  have once (forwarder : Forwarder) (id : PitId) : ∃ pit timers deadNonces,
      satisfy source data forwarder id = { forwarder with pit, timers, deadNonces } := by
    cases found : forwarder.pit.get? id with
    | none => exact ⟨_, _, _, satisfy_of_none found⟩
    | some entry =>
      obtain ⟨deadNonces, _, same⟩ := satisfy_eq source data found
      obtain ⟨_, _, stopped⟩ := forwarder.cancelTimers_frame id
      obtain ⟨_, _, lingers⟩ := ({ forwarder.cancelTimers id with deadNonces }.updateEntry id
        fun entry => entry.clearInRecords.deleteOutRecord source).setStragglerTimer_frame id true
          data.freshness
      rw [same, lingers, stopped]
      exact ⟨_, _, _, rfl⟩
  induction ids generalizing forwarder with
  | nil => exact ⟨_, _, _, rfl⟩
  | cons first rest ih =>
    obtain ⟨_, _, _, settled⟩ := once forwarder first
    obtain ⟨_, _, _, later⟩ := @ih (satisfy source data forwarder first)
    rw [List.foldl_cons, later, settled]
    exact ⟨_, _, _, rfl⟩

theorem counters_satisfyAll (source : FaceId) (data : Data) (ids : List PitId) :
    (ids.foldl (satisfy source data) forwarder).counters = forwarder.counters := by
  obtain ⟨_, _, _, same⟩ := forwarder.satisfyAll_frame source data ids
  rw [same]

theorem grows_sendAll (only : still ⊆ Counter.faults) (data : Data) {faces : List FaceId}
    (reachable : .invalidFaceSends ∈ still → ∀ face ∈ faces, forwarder.isReachable face = true) :
    Grows still forwarder.counters
      (faces.foldl (fun forwarder face => forwarder.sendData data face) forwarder).counters := by
  induction faces generalizing forwarder with
  | nil => exact .refl _
  | cons first rest ih =>
    refine .trans (grows_sendData only (fun listed => reachable listed first List.mem_cons_self) data)
      (ih fun listed face later => ?_)
    rw [sendData_eq]
    exact reachable listed face (List.mem_cons_of_mem _ later)

theorem grows_receiveUnsolicited (only : still ⊆ Counter.faults) :
    Grows still forwarder.counters (forwarder.receiveUnsolicited face data).counters := by
  have counted := (Grows.refl forwarder.counters).tally only .unsolicitedData (by decide)
  unfold receiveUnsolicited
  dsimp only
  split
  · exact counted
  · exact counted

/-- Data goes to faces that wait, and those are there. -/
theorem grows_receiveSolicited (only : still ⊆ Counter.faults)
    (safe : .invalidFaceSends ∈ still → forwarder.Sound) (ids : List PitId) :
    Grows still forwarder.counters (forwarder.receiveSolicited face data ids).counters := by
  obtain ⟨cached, isCached⟩ : ∃ cached, cached = { forwarder with
    contentStore := forwarder.contentStore.insert data false forwarder.now } := ⟨_, rfl⟩
  have begins : Grows still forwarder.counters cached.counters := by
    rw [isCached]
    exact .refl _
  unfold receiveSolicited
  dsimp only
  rw [← isCached]
  refine begins.trans ?_
  rw [← counters_satisfyAll face data ids]
  refine grows_sendAll only data fun listed downstream waits => ?_
  have sound : cached.Sound := by
    rw [isCached]
    exact (safe listed).of_same rfl rfl rfl
  obtain ⟨_, steady, _⟩ := satisfyAll_spec sound.matched face data ids
  obtain ⟨id, _, entry, found, record, member, _, rfl⟩ :=
    mem_waitingFaces.mp (List.mem_filter.mp waits).1
  rw [isReachable, steady.faces]
  exact sound.isReachable ((sound.recorded found).inFaces member)

theorem grows_receiveData (only : still ⊆ Counter.faults)
    (safe : .invalidFaceSends ∈ still → forwarder.Sound) :
    Grows still forwarder.counters (forwarder.receiveData face data).counters := by
  have received := (Grows.refl forwarder.counters).tally only .inData (by decide)
  unfold receiveData
  dsimp only
  split
  · exact received
  · split
    · exact received.tally only .scopeViolations (by decide)
    · split
      · refine .trans ?_ (grows_receiveUnsolicited only)
        exact received
      · refine .trans ?_ (grows_receiveSolicited only (fun listed => ?_) _)
        · exact received
        · exact (safe listed).of_same rfl rfl rfl

theorem grows_finalize (only : still ⊆ Counter.faults) (satisfied : Bool)
    (freshness : Option Duration) :
    Grows still forwarder.counters (forwarder.finalize id satisfied freshness).counters := by
  have grows : Grows still forwarder.counters forwarder.counters := .refl _
  cases found : forwarder.pit.get? id with
  | none =>
    rw [finalize_of_none found]
    exact grows
  | some entry =>
    rw [counters_finalize found]
    split
    · exact grows.tally only .satisfiedInterests (by decide)
    · exact grows.tally only .unsatisfiedInterests (by decide)

theorem counters_beforeExpireInterest (strategy : Strategy) :
    (strategy.beforeExpireInterest forwarder id).counters = forwarder.counters := by
  have bumped (name : Name) (penalty : Cost) (records : List OutRecord) (forwarder : Forwarder) :
      (records.foldl (fun forwarder record => forwarder.bumpCost name record.face penalty)
        forwarder).counters = forwarder.counters := by
    induction records generalizing forwarder with
    | nil => rfl
    | cons first rest ih => exact ih _
  unfold Strategy.beforeExpireInterest
  split
  · rfl
  · split
    · rfl
    · exact bumped _ _ _ _

theorem grows_fire (only : still ⊆ Counter.faults) (event : TimerEvent) :
    Grows still forwarder.counters (forwarder.fire event).counters := by
  cases event with
  | straggler id satisfied freshness => exact grows_finalize only satisfied freshness
  | unsatisfy id =>
    show Grows still forwarder.counters (forwarder.expire id).counters
    unfold expire
    split
    · exact .refl _
    · refine .trans ?_ (grows_finalize only false none)
      rw [counters_beforeExpireInterest]
      exact .refl _

theorem grows_forgetAll (only : still ⊆ Counter.faults) (ids : List PitId) :
    Grows still forwarder.counters (ids.foldl (forgetFace face) forwarder).counters := by
  have once (forwarder : Forwarder) (id : PitId) :
      Grows still forwarder.counters (forgetFace face forwarder id).counters := by
    unfold forgetFace
    split
    · exact .refl _
    · dsimp only
      split
      · refine .trans ?_ (grows_finalize only false none)
        exact .refl _
      · exact .refl _
  induction ids generalizing forwarder with
  | nil => exact .refl _
  | cons first rest ih => exact (once forwarder first).trans ih

/-- What keeps an action from being counted as a fault: faces and routes are in order,
and the host neither sends nor rejects by itself. -/
structure Faultless (still : List Counter) (forwarder : Forwarder) (action : Action) : Prop where
  sends : .invalidFaceSends ∈ still → forwarder.Sound ∧ forwarder.Routed ∧
    (∀ id face hint newNonce, action ≠ .sendInterest id face hint newNonce) ∧
      ∀ data face, action ≠ .sendData data face
  rejects : .strategyViolations ∈ still → ∀ id, action ≠ .reject id

/-- No action lowers a counter, and faults come only from what may be one. -/
theorem grows_act (only : still ⊆ Counter.faults) {action : Action}
    (faultless : Faultless still forwarder action) :
    Grows still forwarder.counters (forwarder.act action).counters := by
  cases action with
  | addReservedFace id face =>
    simp only [act, addReservedFace]
    split <;> exact .refl _
  | removeFace face =>
    simp only [act, removeFace]
    split
    · simp only [Except.toOption, Option.getD_some]
      refine .trans ?_ (grows_forgetAll only _)
      exact .refl _
    · exact .refl _
  | receiveInterest face interest =>
    exact grows_receiveInterest only fun listed =>
      ⟨(faultless.sends listed).1, (faultless.sends listed).2.1⟩
  | receiveData face data => exact grows_receiveData only fun listed => (faultless.sends listed).1
  | receiveUnsolicited face data => exact grows_receiveUnsolicited only
  | sendInterest id face hint newNonce =>
    exact grows_sendInterest only
      (fun listed => absurd rfl ((faultless.sends listed).2.2.1 id face hint newNonce)) hint newNonce
  | reject id => exact grows_reject only fun listed => absurd rfl (faultless.rejects listed id)
  | sendData data face =>
    exact grows_sendData only
      (fun listed => absurd rfl ((faultless.sends listed).2.2.2 data face)) data
  | fireNext limit =>
    simp only [act]
    split
    · exact .refl _
    · refine .trans ?_ (grows_fire only _)
      exact .refl _
  | passTime time =>
    simp only [act]
    split <;> exact .refl _
  | _ => exact .refl _

end Forwarder

end NamedData
