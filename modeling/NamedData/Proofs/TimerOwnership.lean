import NamedData.Proofs.Soundness

namespace NamedData

namespace Forwarder

/-- Timers and entries belong together: each pending timer is the one that a slot
of a live entry holds, each filled slot holds a pending timer, and an entry has
a timer as long as it lives, which ends it. -/
structure TimersOwned (forwarder : Forwarder) : Prop where
  pending : ∀ (timer : TimerId) (event : TimerEvent),
    forwarder.timers.running[timer]? = some event →
    ∃ entry, forwarder.pit.get? event.entry = some entry ∧ entry.timer event.slot = some timer
  filled : ∀ (id : PitId) (entry : PitEntry) (slot : TimerSlot) (timer : TimerId),
    forwarder.pit.get? id = some entry → entry.timer slot = some timer →
    ∃ event, forwarder.timers.running[timer]? = some event ∧ event.entry = id ∧ event.slot = slot
  live : ∀ (name : Name) (id : PitId), forwarder.pit.find? name = some id →
    ∃ entry, forwarder.pit.get? id = some entry ∧ entry.id = id
  guarded : ∀ (id : PitId) (entry : PitEntry), forwarder.pit.get? id = some entry →
    ∃ slot timer, entry.timer slot = some timer
  settled : ∀ (id : PitId) (entry : PitEntry), forwarder.pit.get? id = some entry →
    entry.inRecords = [] → ∃ timer, entry.stragglerTimer = some timer
  fires : ∀ (limit : Instant) (timer : Timer TimerEvent) (rest : Timers TimerEvent),
    forwarder.timers.popDue? limit = some (timer, rest) →
    ∃ entry, forwarder.pit.get? timer.payload.entry = some entry ∧
      entry.timer timer.payload.slot = some timer.id
  passed : ∀ (time : Instant) (id : PitId) (entry : PitEntry),
    (forwarder.advanceTo time).pit.get? id = some entry →
    ∃ slot timer, entry.timer slot = some timer ∧ time < timer.deadline
  idle : forwarder.nextDeadline? = none ↔ forwarder.pit.isEmpty = true

variable {forwarder : Forwarder}

theorem Sound.settled (sound : Sound forwarder) {id : PitId} {entry : PitEntry}
    (found : forwarder.pit.get? id = some entry) (bare : entry.inRecords = []) :
    ∃ timer, entry.stragglerTimer = some timer := by
  cases slot : entry.stragglerTimer with
  | some timer => exact ⟨timer, rfl⟩
  | none => exact absurd bare ((sound.timed found).awaited slot).1

theorem Sound.guarded (sound : Sound forwarder) {id : PitId} {entry : PitEntry}
    (found : forwarder.pit.get? id = some entry) :
    ∃ slot timer, entry.timer slot = some timer := by
  cases straggler : entry.stragglerTimer with
  | some timer => exact ⟨.straggler, timer, straggler⟩
  | none =>
    obtain ⟨timer, armed⟩ := Option.isSome_iff_exists.mp ((sound.timed found).awaited straggler).2
    exact ⟨.unsatisfy, timer, armed⟩

theorem Sound.idle (sound : Sound forwarder) :
    forwarder.nextDeadline? = none ↔ forwarder.pit.isEmpty = true := by
  rw [nextDeadline?, Timers.nextDeadline?_eq_none, Pit.isEmpty_iff]
  constructor
  · intro quiet id
    cases found : forwarder.pit.get? id with
    | none => rfl
    | some entry =>
      obtain ⟨slot, timer, armed⟩ := sound.guarded found
      obtain ⟨event, running, _⟩ := sound.matched.armed found armed
      rw [quiet] at running
      cases running
  · intro bare timer
    cases running : forwarder.timers.running[timer]? with
    | none => rfl
    | some event =>
      obtain ⟨entry, found, _⟩ := sound.matched.live running
      rw [bare] at found
      cases found

/-- What is still there once the clock has been moved on is due later. -/
theorem Sound.passed (sound : Sound forwarder) {time : Instant} {id : PitId} {entry : PitEntry}
    (found : (forwarder.advanceTo time).pit.get? id = some entry) :
    ∃ slot timer, entry.timer slot = some timer ∧ time < timer.deadline := by
  obtain ⟨⟨_, _, fired⟩, quiet⟩ := forwarder.fireDue_eq_run time
  have sound' : Sound (forwarder.fireDue time) := by
    rw [fired]
    exact sound.run _
  have found' : (forwarder.fireDue time).pit.get? id = some entry := found
  -- The entry still has a timer, and none that is due is left.
  obtain ⟨slot, timer, armed⟩ := sound'.guarded found'
  obtain ⟨event, running, _⟩ := sound'.matched.armed found' armed
  exact ⟨slot, timer, armed, Timers.later_of_popDue? quiet running⟩

variable {settings : Settings} {contentStore : ContentStore} {counters : Counters}
  {nonces : NonceSource} {start : Forwarder}

/-- In every state that a forwarder comes to, its timers belong to its pending
entries and each entry has one that ends it. -/
theorem timers_owned (made : withParts settings contentStore counters nonces = .ok start)
    (reach : Reach start forwarder) : TimersOwned forwarder := by
  have sound := reach.sound made
  exact {
    pending := fun _ _ running => sound.matched.live running
    filled := fun _ _ _ _ found armed => sound.matched.armed found armed
    live := fun _ _ atName =>
      (sound.matched.filed.exists_get? atName).imp fun _ found => ⟨found, sound.matched.filed.own found⟩
    guarded := fun _ _ found => sound.guarded found
    settled := fun _ _ found bare => sound.settled found bare
    fires := fun _ _ _ popped => popped_owner sound.matched popped
    passed := fun _ _ _ found => sound.passed found
    idle := sound.idle }

theorem timers_owned_while_one_waits :
    (usual.run oneWaits).timers.running.size = 1 ∧ (usual.run oneWaits).pit.size = 1 ∧
      TimersOwned (usual.run oneWaits) :=
  ⟨by decide, by decide, timers_owned ofSettings_usual (Reach.start.run oneWaits)⟩

end Forwarder

end NamedData
