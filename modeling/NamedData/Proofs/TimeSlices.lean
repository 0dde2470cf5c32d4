import NamedData.Proofs.Actions
import NamedData.Proofs.Departure

namespace NamedData

namespace DeadNonceList

variable {list : DeadNonceList} {earlier now : Instant}

/-- Eviction is given the notes that it goes through, and puts those it keeps in
place of the log. -/
theorem evictFrom_withLog (notes log : List DeadNonce) (list : DeadNonceList) (now : Instant) :
    { list with log }.evictFrom now notes = list.evictFrom now notes := by
  induction notes generalizing list with
  | nil => rfl
  | cons first rest ih =>
    rw [evictFrom, evictFrom]
    split
    · split
      · rename_i current
        rw [if_pos (show list.isCurrent first = true from current)]
        exact ih (list.forget first)
      · rename_i stale
        rw [if_neg (show ¬ list.isCurrent first = true from stale)]
        exact ih list
    · rfl

/-- What has outlived its lifetime earlier has done so now, so an eviction takes up
where an earlier one stopped. -/
theorem evictFrom_evictFrom (passed : earlier ≤ now) (notes : List DeadNonce)
    (list : DeadNonceList) :
    (list.evictFrom earlier notes).evictFrom now (list.evictFrom earlier notes).log =
      list.evictFrom now notes := by
  induction notes generalizing list with
  | nil => rfl
  | cons first rest ih =>
    by_cases late : first.noted + list.lifetime ≤ earlier
    · have later : first.noted + list.lifetime ≤ now := Nat.le_trans late passed
      rw [evictFrom, evictFrom, if_pos late, if_pos later]
      split
      · exact ih (list.forget first)
      · exact ih list
    · rw [evictFrom, if_neg late]
      exact evictFrom_withLog (first :: rest) (first :: rest) list now

theorem evictExpired_of_recent (bare : list.recent = []) :
    list.evictExpired now = list.evictFrom now list.log := by
  obtain ⟨_, _, recent, _⟩ := evictFrom_spec list.log list now
  rw [bare] at recent
  obtain ⟨evicted, isEvicted⟩ : ∃ evicted, evicted = list.evictFrom now list.log := ⟨_, rfl⟩
  rw [← isEvicted] at recent
  simp only [evictExpired, ← isEvicted]
  split
  · rename_i used
    obtain ⟨lifetime, capacity, latest, log, _⟩ := evicted
    cases recent
    cases List.isEmpty_iff.mp used
    rfl
  · rfl

/-- An eviction makes up for every earlier one. -/
theorem evictExpired_evictExpired (passed : earlier ≤ now) :
    (list.evictExpired earlier).evictExpired now = list.evictExpired now := by
  have log := evictFrom_evictFrom passed list.log list
  obtain ⟨evicted, isEvicted⟩ : ∃ evicted, evicted = list.evictFrom earlier list.log := ⟨_, rfl⟩
  rw [← isEvicted] at log
  by_cases used : evicted.log.isEmpty = true
  · -- The log was used up, so that only notes made since are left, and they are the log now.
    have nothing : evicted.evictFrom now evicted.log = evicted := by
      rw [List.isEmpty_iff.mp used, evictFrom, ← List.isEmpty_iff.mp used]
    have recent := evictFrom_evictFrom passed evicted.recent.reverse { evicted with recent := [] }
    obtain ⟨_, _, bare, _⟩ := evictFrom_spec evicted.recent.reverse { evicted with recent := [] } earlier
    have first : list.evictExpired earlier =
        { evicted with recent := [] }.evictFrom earlier evicted.recent.reverse := by
      simp only [evictExpired, ← isEvicted, used, if_true]
    have direct : list.evictExpired now =
        { evicted with recent := [] }.evictFrom now evicted.recent.reverse := by
      simp only [evictExpired, ← log, nothing, used, if_true]
    rw [first, evictExpired_of_recent bare, recent, direct]
  · have first : list.evictExpired earlier = evicted := by
      simp only [evictExpired, ← isEvicted, used]
      rfl
    rw [first]
    simp only [evictExpired, log]

/-- Nonces are noted after an eviction of their own. -/
theorem addAll_evictExpired (passed : earlier ≤ now) (key : RequestKey) (rest : List RequestKey) :
    (list.evictExpired earlier).addAll (key :: rest) now = list.addAll (key :: rest) now := by
  rw [addAll, addAll, List.foldl_cons, List.foldl_cons, add_eq, add_eq,
    evictExpired_evictExpired passed]

end DeadNonceList

namespace Timers

variable {α : Type} {timers : Timers α} {earlier later : Instant}

theorem popDue?_mono {popped : Timer α × Timers α} (due : timers.popDue? earlier = some popped)
    (passed : earlier ≤ later) : timers.popDue? later = some popped := by
  unfold popDue? at due ⊢
  split at due
  · cases due
  · split at due
    · rename_i id _ inTime
      have inTime' : id.deadline ≤ later := Nat.le_trans inTime passed
      rw [if_pos inTime']
      exact due
    · cases due

/-- The clock may move on ahead of the timers that are still to come. -/
theorem popDue?_advanceTo (idle : timers.popDue? earlier = none) :
    (timers.advanceTo earlier).popDue? later = timers.popDue? later := by
  simp only [popDue?, advanceTo]
  split
  · rfl
  · rename_i id _
    split
    · refine Option.map_congr fun payload running => ?_
      have ahead : earlier < id.deadline := later_of_popDue? idle (Option.mem_def.mp running)
      have clock : max (max timers.now earlier) id.deadline = max timers.now id.deadline := by
        refine Duration.ext ?_
        have bound : earlier.nanos < id.deadline.nanos := ahead
        simp only [Duration.nanos_max]
        omega
      rw [clock]
    · rfl

end Timers

namespace Forwarder

variable {forwarder : Forwarder}

/-- The same forwarder with another list of dead nonces. -/
def withNonces (forwarder : Forwarder) (deadNonces : DeadNonceList) : Forwarder :=
  { forwarder with deadNonces }

/-- The end of an entry only adds to the list of dead nonces, and but for its
lifetime does not look at it. -/
theorem finalize_withNonces (id : PitId) (satisfied : Bool) (freshness : Option Duration) :
    ∃ keys, ∀ list : DeadNonceList, list.lifetime = forwarder.deadNonces.lifetime →
      (forwarder.withNonces list).finalize id satisfied freshness =
        (forwarder.finalize id satisfied freshness).withNonces (list.addAll keys forwarder.now) := by
  cases found : forwarder.pit.get? id with
  | none =>
    refine ⟨[], fun list _ => ?_⟩
    rw [finalize_of_none found, @finalize_of_none (forwarder.withNonces list) id found]
    rfl
  | some entry =>
    refine ⟨if forwarder.mustNoteNonces entry satisfied freshness then outKeys entry none else [],
      fun list lifetime => ?_⟩
    have here : (forwarder.withNonces list).pit.get? id = some entry := found
    have must : (forwarder.withNonces list).mustNoteNonces entry satisfied freshness =
        forwarder.mustNoteNonces entry satisfied freshness := by
      rw [mustNoteNonces, mustNoteNonces, withNonces, lifetime]
    rw [finalize_eq here, finalize_eq found, deadNonces_noteDeadNonces here, must,
      counters_finalize here, counters_finalize found,
      @timers_cancelTimers_congr forwarder (forwarder.withNonces list) rfl rfl id]
    rfl

theorem bumpAll_withNonces (name : Name) (penalty : Cost) (records : List OutRecord)
    (list : DeadNonceList) :
    records.foldl (fun forwarder record => forwarder.bumpCost name record.face penalty)
        (forwarder.withNonces list) =
      (records.foldl (fun forwarder record => forwarder.bumpCost name record.face penalty)
        forwarder).withNonces list := by
  induction records generalizing forwarder with
  | nil => rfl
  | cons record rest ih => exact @ih (forwarder.bumpCost name record.face penalty)

theorem beforeExpireInterest_withNonces (strategy : Strategy) (id : PitId) (list : DeadNonceList) :
    strategy.beforeExpireInterest (forwarder.withNonces list) id =
      (strategy.beforeExpireInterest forwarder id).withNonces list := by
  cases strategy with
  | multicast => rfl
  | bestRoute penalty =>
    cases found : forwarder.pit.get? id with
    | none => simp only [Strategy.beforeExpireInterest, withNonces, found]
    | some entry =>
      simp only [Strategy.beforeExpireInterest, withNonces, found]
      exact bumpAll_withNonces entry.name penalty entry.outRecords list

/-- A timer that goes off notes the same nonces on whatever list there is, and the
list has no say in the rest. -/
theorem fire_withNonces (event : TimerEvent) :
    ∃ keys, ∀ list : DeadNonceList, list.lifetime = forwarder.deadNonces.lifetime →
      (forwarder.withNonces list).fire event =
        (forwarder.fire event).withNonces (list.addAll keys forwarder.now) := by
  cases event with
  | straggler id satisfied freshness => exact finalize_withNonces id satisfied freshness
  | unsatisfy id =>
    cases found : forwarder.pit.get? id with
    | none =>
      refine ⟨[], fun list _ => ?_⟩
      simp only [fire, expire, withNonces, found]
      rfl
    | some entry =>
      obtain ⟨told, isTold⟩ : ∃ told, told = (forwarder.strategies.effective entry.name
        ).beforeExpireInterest (forwarder.updateEntry id
          fun entry => { entry with unsatisfyTimer := none }) id := ⟨_, rfl⟩
      obtain ⟨fib, same⟩ := (forwarder.updateEntry id
        fun entry => { entry with unsatisfyTimer := none }).beforeExpireInterest_eq
          (forwarder.strategies.effective entry.name) id
      rw [← isTold] at same
      obtain ⟨keys, ended⟩ := @finalize_withNonces told id false none
      refine ⟨keys, fun list lifetime => ?_⟩
      have expired : forwarder.fire (.unsatisfy id) = told.finalize id false none := by
        simp only [fire, expire, found, isTold]
        rfl
      have expired' : (forwarder.withNonces list).fire (.unsatisfy id) =
          (told.withNonces list).finalize id false none := by
        rw [isTold, ← beforeExpireInterest_withNonces]
        simp only [fire, expire, withNonces, found]
        rfl
      rw [expired, expired', ended list (by rw [lifetime, same]; rfl)]
      rw [show told.now = forwarder.now by rw [same]; rfl]

/-- The clock moves on, as it does once no timer is due. -/
def pass (forwarder : Forwarder) (time : Instant) : Forwarder :=
  let timers := forwarder.timers.advanceTo time
  { forwarder with timers, deadNonces := forwarder.deadNonces.evictExpired timers.now }

theorem pass_pass (first second : Instant) :
    (forwarder.pass first).pass second = forwarder.pass (max first second) := by
  have clock : max (max forwarder.timers.now first) second =
      max forwarder.timers.now (max first second) := by
    refine Duration.ext ?_
    simp only [Duration.nanos_max, Nat.max_assoc]
  have passed : max forwarder.timers.now first ≤ max (max forwarder.timers.now first) second :=
    Std.left_le_max
  rw [clock] at passed
  simp only [pass, Timers.advanceTo, DeadNonceList.evictExpired_evictExpired passed, clock]

theorem advanceTo_of_idle {time : Instant} (idle : forwarder.timers.popDue? time = none) :
    forwarder.advanceTo time = forwarder.pass time := by
  rw [advanceTo, fireDue_of_idle idle]
  rfl

theorem advanceTo_of_popped {time : Instant} {timer : Timer TimerEvent} {rest : Timers TimerEvent}
    (popped : forwarder.timers.popDue? time = some (timer, rest)) :
    forwarder.advanceTo time = ({ forwarder with timers := rest }.fire timer.payload).advanceTo time := by
  rw [advanceTo, fireDue_of_popped popped]
  rfl

/-- The same forwarder, but it may have evicted dead nonces already that have
outlived their lifetime by now. -/
inductive Ahead (forwarder : Forwarder) : Forwarder → Prop
  | same : Ahead forwarder forwarder
  | evicted {time : Instant} (passed : time ≤ forwarder.now) :
      Ahead forwarder (forwarder.withNonces (forwarder.deadNonces.evictExpired time))

variable {ahead : Forwarder}

/-- As soon as a nonce is noted, nothing is left of the difference. -/
theorem Ahead.fire (early : Ahead forwarder ahead) (event : TimerEvent) :
    Ahead (forwarder.fire event) (ahead.fire event) := by
  cases early with
  | same => exact .same
  | @evicted time passed =>
    obtain ⟨keys, noted⟩ := @fire_withNonces forwarder event
    have late := noted forwarder.deadNonces rfl
    have early := noted (forwarder.deadNonces.evictExpired time)
      (forwarder.deadNonces.evictExpired_spec time).1.lifetime
    rw [show forwarder.withNonces forwarder.deadNonces = forwarder from rfl] at late
    rw [early]
    cases keys with
    | nil =>
      have kept : (forwarder.fire event).deadNonces = forwarder.deadNonces := by
        rw [late]
        rfl
      rw [show DeadNonceList.addAll _ [] forwarder.now = _ from rfl, ← kept]
      exact .evicted (by rw [now_fire]; exact passed)
    | cons key rest =>
      rw [DeadNonceList.addAll_evictExpired passed, ← late]
      exact .same

theorem Ahead.pass (early : Ahead forwarder ahead) (time : Instant) :
    ahead.pass time = forwarder.pass time := by
  cases early with
  | same => rfl
  | @evicted past passed =>
    have bound : forwarder.timers.now ≤ max forwarder.timers.now time := Std.left_le_max
    have later : past ≤ max forwarder.timers.now time := Nat.le_trans passed bound
    simp only [Forwarder.pass, withNonces, Timers.advanceTo,
      DeadNonceList.evictExpired_evictExpired later]

theorem Ahead.timers (early : Ahead forwarder ahead) : ahead.timers = forwarder.timers := by
  cases early <;> rfl

theorem Ahead.popped (early : Ahead forwarder ahead) {time : Instant} {timer : Timer TimerEvent}
    {rest : Timers TimerEvent} (popped : forwarder.timers.popDue? time = some (timer, rest)) :
    Ahead { forwarder with timers := rest } { ahead with timers := rest } := by
  cases early with
  | same => exact .same
  | evicted passed =>
    have later : forwarder.now ≤ rest.now := by
      rw [(Timers.popDue?_eq_some popped).2.2]
      exact Std.left_le_max
    exact .evicted (Nat.le_trans passed later)

theorem Ahead.advanceTo (early : Ahead forwarder ahead) (time : Instant) :
    ahead.advanceTo time = forwarder.advanceTo time := by
  induction forwarder using fireDue.induct time generalizing ahead with
  | case1 forwarder idle =>
    rw [advanceTo_of_idle idle, advanceTo_of_idle (by rw [early.timers]; exact idle)]
    exact early.pass time
  | case2 forwarder timer timers popped ih =>
    rw [advanceTo_of_popped popped, advanceTo_of_popped (by rw [early.timers]; exact popped)]
    exact ih ((early.popped popped).fire timer.payload)

variable {earlier later : Instant}

/-- When no timer is due, moving the clock on first makes no difference. -/
theorem advanceTo_pass (idle : forwarder.timers.popDue? earlier = none) (passed : earlier ≤ later) :
    (forwarder.pass earlier).advanceTo later = forwarder.advanceTo later := by
  have same : (forwarder.pass earlier).timers.popDue? later = forwarder.timers.popDue? later :=
    Timers.popDue?_advanceTo idle
  cases popped : forwarder.timers.popDue? later with
  | none =>
    rw [advanceTo_of_idle popped, advanceTo_of_idle (same.trans popped), pass_pass]
    rw [show max earlier later = later from if_pos passed]
  | some due =>
    obtain ⟨timer, rest⟩ := due
    rw [advanceTo_of_popped popped, advanceTo_of_popped (same.trans popped)]
    -- Its deadline is still to come at the earlier time, so the clock ends up the same.
    obtain ⟨running, _, isRest⟩ := Timers.popDue?_eq_some popped
    have bound : earlier < timer.id.deadline := Timers.later_of_popDue? idle running
    have evicted : max forwarder.timers.now earlier ≤ rest.now := by
      rw [isRest, Duration.le_def]
      simp only [Duration.nanos_max]
      have bound' : earlier.nanos < timer.id.deadline.nanos := bound
      omega
    have early : Ahead { forwarder with timers := rest }
      { forwarder.pass earlier with timers := rest } := .evicted evicted
    exact (early.fire timer.payload).advanceTo later

theorem advanceTo_fireDue (passed : earlier ≤ later) :
    (forwarder.fireDue earlier).advanceTo later = forwarder.advanceTo later := by
  induction forwarder using fireDue.induct earlier with
  | case1 forwarder idle => rw [fireDue_of_idle idle]
  | case2 forwarder timer timers popped ih =>
    rw [fireDue_of_popped popped, ih, ← advanceTo_of_popped (Timers.popDue?_mono popped passed)]

theorem advanceTo_advanceTo (earlier later : Instant) :
    (forwarder.advanceTo earlier).advanceTo later = forwarder.advanceTo (max earlier later) := by
  have idle := (forwarder.fireDue_eq_run earlier).2
  show ((forwarder.fireDue earlier).pass earlier).advanceTo later = _
  by_cases passed : earlier ≤ later
  · rw [advanceTo_pass idle passed, advanceTo_fireDue passed,
      show max earlier later = later from if_pos passed]
  · have before : later ≤ earlier := Nat.le_of_not_le passed
    have quiet : ((forwarder.fireDue earlier).pass earlier).timers.popDue? later = none := by
      cases due : ((forwarder.fireDue earlier).pass earlier).timers.popDue? later with
      | none => rfl
      | some popped =>
        have early : ((forwarder.fireDue earlier).timers.advanceTo earlier).popDue? earlier =
            some popped := Timers.popDue?_mono due before
        rw [Timers.popDue?_advanceTo idle, idle] at early
        cases early
    rw [advanceTo_of_idle quiet, pass_pass, show max earlier later = earlier from if_neg passed]
    rfl

/-- The clock stands between where it stood and the time that it is to come to. -/
theorem now_fireDue (time : Instant) :
    forwarder.now ≤ (forwarder.fireDue time).now ∧
      (forwarder.fireDue time).now ≤ max forwarder.now time := by
  induction forwarder using fireDue.induct time with
  | case1 forwarder idle =>
    rw [fireDue_of_idle idle]
    exact ⟨Nat.le_refl _, Std.left_le_max⟩
  | case2 forwarder timer timers popped ih =>
    obtain ⟨_, due, isRest⟩ := Timers.popDue?_eq_some popped
    obtain ⟨lower, upper⟩ := ih
    have clock : timers.now = max forwarder.now timer.id.deadline := by
      rw [isRest]
      rfl
    rw [now_fire, show Forwarder.now { forwarder with timers } = timers.now from rfl, clock]
      at lower upper
    rw [fireDue_of_popped popped]
    simp only [Duration.le_def, Duration.nanos_max] at lower upper due ⊢
    omega

theorem now_advanceTo (time : Instant) :
    (forwarder.advanceTo time).now = max forwarder.now time := by
  obtain ⟨lower, upper⟩ := @now_fireDue forwarder time
  have clock : (forwarder.advanceTo time).now = max (forwarder.fireDue time).now time := rfl
  rw [clock]
  refine Duration.ext ?_
  simp only [Duration.le_def, Duration.nanos_max] at lower upper ⊢
  omega

/-- Time may pass in slices: advancing the clock twice leaves the very state that
one advance to the later of both times does. Each advance ends, after no more
timers went off than there were, and then none is due and the clock is where it
should be. -/
theorem time_passes_in_slices (earlier later : Instant) :
    (forwarder.advanceTo earlier).advanceTo later = forwarder.advanceTo (max earlier later) ∧
      (∃ count ≤ forwarder.timers.running.size, forwarder.advanceTo earlier =
        forwarder.run (List.replicate count (.fireNext earlier) ++ [.passTime earlier])) ∧
      (∀ (timer : TimerId) (event : TimerEvent),
        (forwarder.advanceTo earlier).timers.running[timer]? = some event →
        earlier < timer.deadline) ∧
      (forwarder.advanceTo earlier).now = max forwarder.now earlier := by
  refine ⟨advanceTo_advanceTo earlier later, forwarder.advanceTo_eq_run earlier, ?_,
    now_advanceTo earlier⟩
  intro timer event running
  exact Timers.later_of_popDue? (forwarder.fireDue_eq_run earlier).2 running

end Forwarder

end NamedData
