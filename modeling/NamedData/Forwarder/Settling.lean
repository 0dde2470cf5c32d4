import NamedData.Forwarder.Sending

namespace NamedData

namespace Forwarder

/-- Erases an entry. Each entry that ever was ends here, once. -/
def finalize (forwarder : Forwarder) (id : PitId) (satisfied : Bool)
    (freshness : Option Duration) : Forwarder :=
  match forwarder.pit.get? id with
  | none => forwarder
  | some _ =>
    let noted := forwarder.noteDeadNonces id satisfied freshness none
    let counted := noted.count fun counters =>
      if satisfied then { counters with satisfiedInterests := counters.satisfiedInterests + 1 }
      else { counters with unsatisfiedInterests := counters.unsatisfiedInterests + 1 }
    let stopped := counted.cancelTimers id
    { stopped with pit := stopped.pit.erase id }

/-- No downstream waits any more: the strategy hears of it and the entry
goes. -/
def expire (forwarder : Forwarder) (id : PitId) : Forwarder :=
  match forwarder.pit.get? id with
  | none => forwarder
  | some entry =>
    let fired := forwarder.updateEntry id fun entry => { entry with unsatisfyTimer := none }
    ((fired.strategies.effective entry.name).beforeExpireInterest fired id).finalize id false none

def fire (forwarder : Forwarder) : TimerEvent → Forwarder
  | .unsatisfy id => forwarder.expire id
  | .straggler id satisfied freshness => forwarder.finalize id satisfied freshness

@[simp] theorem timers_count (forwarder : Forwarder) (change : Counters → Counters) :
    (forwarder.count change).timers = forwarder.timers := rfl

@[simp] theorem timers_updateEntry (forwarder : Forwarder) (id : PitId)
    (change : PitEntry → PitEntry) : (forwarder.updateEntry id change).timers = forwarder.timers :=
  rfl

theorem timers_noteDeadNonces (forwarder : Forwarder) (id : PitId) (satisfied : Bool)
    (freshness : Option Duration) (outFace : Option FaceId) :
    (forwarder.noteDeadNonces id satisfied freshness outFace).timers = forwarder.timers := by
  unfold noteDeadNonces
  split
  · rfl
  · split <;> rfl

theorem running_stopTimer_le (forwarder : Forwarder) (slot : Option TimerId) :
    (forwarder.stopTimer slot).timers.running.size ≤ forwarder.timers.running.size := by
  cases slot with
  | none => exact Nat.le_refl _
  | some timer => exact Timers.size_cancel_le _ _

theorem running_cancelTimers_le (forwarder : Forwarder) (id : PitId) :
    (forwarder.cancelTimers id).timers.running.size ≤ forwarder.timers.running.size := by
  unfold cancelTimers
  split
  · exact Nat.le_refl _
  · exact Nat.le_trans (running_stopTimer_le _ _) (running_stopTimer_le _ _)

theorem running_finalize_le (forwarder : Forwarder) (id : PitId) (satisfied : Bool)
    (freshness : Option Duration) :
    (forwarder.finalize id satisfied freshness).timers.running.size ≤
      forwarder.timers.running.size := by
  unfold finalize
  split
  · exact Nat.le_refl _
  · refine Nat.le_trans (running_cancelTimers_le _ _) ?_
    exact Nat.le_of_eq (by rw [timers_count, timers_noteDeadNonces])

theorem timers_bumpAll (forwarder : Forwarder) (name : Name) (penalty : Cost)
    (records : List OutRecord) :
    (records.foldl (fun forwarder record => forwarder.bumpCost name record.face penalty)
      forwarder).timers = forwarder.timers := by
  induction records generalizing forwarder with
  | nil => rfl
  | cons record records ih => exact ih (forwarder.bumpCost name record.face penalty)

theorem timers_beforeExpireInterest (strategy : Strategy) (forwarder : Forwarder) (id : PitId) :
    (strategy.beforeExpireInterest forwarder id).timers = forwarder.timers := by
  unfold Strategy.beforeExpireInterest
  split
  · rfl
  · split
    · rfl
    · exact timers_bumpAll _ _ _ _

/-- Nothing that a timer sets off arms another timer. -/
theorem running_fire_le (forwarder : Forwarder) (event : TimerEvent) :
    (forwarder.fire event).timers.running.size ≤ forwarder.timers.running.size := by
  cases event with
  | straggler id satisfied freshness => exact running_finalize_le _ _ _ _
  | unsatisfy id =>
    show (forwarder.expire id).timers.running.size ≤ _
    unfold expire
    split
    · exact Nat.le_refl _
    · refine Nat.le_trans (running_finalize_le _ _ _ _) ?_
      exact Nat.le_of_eq (by rw [timers_beforeExpireInterest, timers_updateEntry])

/-- Fires every timer due by the given time, in order. -/
def fireDue (forwarder : Forwarder) (time : Instant) : Forwarder :=
  match _popped : forwarder.timers.popDue? time with
  | none => forwarder
  | some (timer, timers) => fireDue ({ forwarder with timers }.fire timer.payload) time
termination_by forwarder.timers.running.size
decreasing_by
  have shorter := Timers.size_popDue _popped
  have bounded := running_fire_le { forwarder with timers } timer.payload
  simp only at bounded
  omega

/-- Moves the clock, firing every timer on the way, and lets the dead nonces
that are past their lifetime go. -/
def advanceTo (forwarder : Forwarder) (time : Instant) : Forwarder :=
  let fired := forwarder.fireDue time
  let timers := fired.timers.advanceTo time
  { fired with timers, deadNonces := fired.deadNonces.evictExpired timers.now }

/-- Forgets a face in one entry. An entry that loses its last downstream this
way is finalized as unsatisfied. -/
def forgetFace (face : FaceId) (forwarder : Forwarder) (id : PitId) : Forwarder :=
  match forwarder.pit.get? id with
  | none => forwarder
  | some entry =>
    let forgotten := forwarder.updateEntry id fun entry =>
      (entry.deleteInRecord face).deleteOutRecord face
    if !entry.inRecords.isEmpty && (entry.deleteInRecord face).inRecords.isEmpty then
      forgotten.finalize id false none
    else forgotten

/-- Removes a face together with its routes and its records. -/
def removeFace (forwarder : Forwarder) (face : FaceId) : Except FaceError Forwarder :=
  if forwarder.faces.contains face then
    let removed := { forwarder with
      faces := forwarder.faces.remove face
      fib := forwarder.fib.removeFace face }
    .ok (removed.pit.ids.foldl (forgetFace face) removed)
  else .error (.notFound face)

end Forwarder

end NamedData
