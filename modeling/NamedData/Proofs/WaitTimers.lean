import NamedData.Proofs.CacheHits

namespace NamedData

namespace Forwarder

variable {action : Action} {before after forwarder start : Forwarder} {id : PitId}
  {entry old : PitEntry} {record : InRecord} {timer : TimerId} {face : FaceId} {interest : Interest}
  {history : List Action}

/-- The timer that ends the wait for an entry, if it is set, goes off when the last of
its downstreams gives up. -/
def EndsOnTime (forwarder : Forwarder) (id : PitId) : Prop :=
  ∀ entry timer, forwarder.pit.get? id = some entry → entry.unsatisfyTimer = some timer →
    entry.lastInRecordExpiry? = some timer.deadline

/-- The timer is set for when the last downstream gives up, as long as that lies ahead. -/
theorem endsOnTime_setUnsatisfyTimer (found : forwarder.pit.get? id = some entry)
    (member : record ∈ entry.inRecords) (ahead : forwarder.now ≤ record.expiry) :
    (forwarder.setUnsatisfyTimer id).EndsOnTime id := by
  intro after timer here armed
  obtain ⟨last, latest⟩ := PitEntry.lastInRecordExpiry?_of_mem member
  have owner : forwarder.pit.get? (TimerEvent.unsatisfy id).entry = some entry := found
  rw [setUnsatisfyTimer_eq found latest] at here
  cases here.symm.trans (get?_rearm last owner)
  cases armed
  have later : forwarder.now ≤ last :=
    Nat.le_trans ahead (PitEntry.expiry_le_last latest member)
  have deadline : max last forwarder.now = last := by
    refine Duration.ext ?_
    rw [Duration.nanos_max]
    exact Nat.max_eq_left later
  show entry.lastInRecordExpiry? = some (max last forwarder.now)
  rw [deadline, latest]

/-- Sending an Interest on leaves downstreams and timers alone. -/
theorem unsatisfyTimer_sendInterest {hint : Option String} {newNonce : Bool}
    (found : (forwarder.sendInterest id face hint newNonce).pit.get? id = some entry) :
    ∃ old, forwarder.pit.get? id = some old ∧ entry.unsatisfyTimer = old.unsatisfyTimer ∧
      entry.inRecords = old.inRecords := by
  cases here : forwarder.pit.get? id with
  | none =>
    rw [show forwarder.sendInterest id face hint newNonce = forwarder by
      simp only [sendInterest, here]] at found
    cases here.symm.trans found
  | some old =>
    refine ⟨old, rfl, ?_⟩
    rcases entry_sendInterest here face hint newNonce with kept | ⟨nonce, lifetime, _, added⟩
    · cases found.symm.trans kept
      exact ⟨rfl, rfl⟩
    · cases found.symm.trans added
      exact ⟨rfl, rfl⟩

theorem endsOnTime_sendInterest (onTime : forwarder.EndsOnTime id) (hint : Option String)
    (newNonce : Bool) : (forwarder.sendInterest id face hint newNonce).EndsOnTime id := by
  intro entry timer found armed
  obtain ⟨old, here, timers, records⟩ := unsatisfyTimer_sendInterest found
  rw [PitEntry.lastInRecordExpiry?, records]
  exact onTime old timer here (timers.symm.trans armed)

/-- An entry that is rejected waits on as before, or has no timer that ends its wait. -/
theorem unsatisfyTimer_reject (found : (forwarder.reject id).pit.get? id = some entry) :
    forwarder.pit.get? id = some entry ∨ entry.unsatisfyTimer = none := by
  rcases forwarder.reject_cases id with ⟨change, same⟩ | ⟨old, change, here, _, same⟩
  · rw [same] at found
    exact Or.inl found
  · have disarmed := (forwarder.count change).get?_cancelTimers id
    rw [show (forwarder.count change).pit.get? id = some old from here, Option.map_some] at disarmed
    have owner : ((forwarder.count change).cancelTimers id).pit.get?
        (TimerEvent.straggler id false none).entry = some old.disarmed := disarmed
    rw [same, setStragglerTimer_eq false none disarmed] at found
    cases found.symm.trans (get?_rearm _ owner)
    exact Or.inr rfl

theorem endsOnTime_reject (onTime : forwarder.EndsOnTime id) :
    (forwarder.reject id).EndsOnTime id := by
  intro entry timer found armed
  rcases unsatisfyTimer_reject found with kept | stopped
  · exact onTime entry timer kept armed
  · rw [stopped] at armed
    cases armed

/-- A downstream that joins sets the timer anew, and it has not given up yet. -/
theorem endsOnTime_join (found : forwarder.pit.get? id = some entry) (face : FaceId)
    (interest : Interest) :
    ((forwarder.addInRecord id face interest).setUnsatisfyTimer id).EndsOnTime id := by
  have joined : (forwarder.addInRecord id face interest).pit.get? id =
      some (entry.addInRecord face interest forwarder.now (forwarder.lifetimeOf interest)) := by
    rw [addInRecord, get?_updateEntry, found]
    rfl
  exact endsOnTime_setUnsatisfyTimer joined (PitEntry.self_mem_putRecord InRecord.face _ _)
    (Duration.le_add forwarder.now (forwarder.lifetimeOf interest))

theorem endsOnTime_askOnward (found : forwarder.pit.get? id = some entry) (face : FaceId)
    (interest : Interest) : (forwarder.askOnward id face interest).EndsOnTime id :=
  afterReceiveInterest_keeps (EndsOnTime · id)
    (fun _ hop onTime _ => endsOnTime_sendInterest onTime hop.targetHint false)
    (fun _ onTime _ => endsOnTime_reject onTime) _ _ (endsOnTime_join found face interest)

/-- An entry that the cache has settled waits no more. -/
theorem endsOnTime_answerFromCache {data : Data} (found : forwarder.pit.get? id = some entry)
    (stopped : entry.unsatisfyTimer = none) (face : FaceId) (interest : Interest) :
    (forwarder.answerFromCache id face interest data).EndsOnTime id := by
  intro after timer here armed
  obtain ⟨settled, _, lingers, _, idle, _⟩ :=
    (@settles_answerFromCache forwarder id entry face interest data found stopped).lingers
  cases here.symm.trans lingers
  rw [idle] at armed
  cases armed

theorem endsOnTime_handleRequest (matched : Matched forwarder.pit forwarder.timers) :
    (forwarder.handleRequest face interest).EndsOnTime (forwarder.pit.insert interest.name).1 := by
  have reopened (counts : Counters → Counters) : ((forwarder.reopen interest.name).count
      counts).pit.get? (forwarder.pit.insert interest.name).1 =
        some (forwarder.entryFor interest.name).disarmed := get?_reopen matched interest.name
  rcases handleRequest_cases matched face interest with ⟨misses, same⟩ | ⟨data, _, same⟩
  · rw [same]
    exact endsOnTime_askOnward (reopened _) face interest
  · rw [same]
    exact endsOnTime_answerFromCache (reopened _) rfl face interest

/-- An Interest that is let in leaves the timer of its entry on time. -/
theorem endsOnTime_receiveInterest (matched : Matched forwarder.pit forwarder.timers)
    {kept : Interest} (judged : forwarder.judge face interest = .duplicate kept ∨
      forwarder.judge face interest = .request kept) :
    (forwarder.receiveInterest face interest).EndsOnTime (forwarder.pit.insert interest.name).1 := by
  have matched' : Matched forwarder.received.pit forwarder.received.timers := matched
  obtain ⟨rfl, _⟩ := judge_letIn judged
  rcases judged with judged | judged
  · rw [receiveInterest_duplicate judged, joinDuplicate_eq]
    exact endsOnTime_join (matched.filed.get?_insert_self interest.name) face _
  · rw [receiveInterest_request judged]
    exact endsOnTime_handleRequest matched'

/-- An action has left the wait for an entry as it was: the same timer ends it, and
downstreams have left with their faces only, and not all of them. -/
structure WaitsOn (forwarder : Forwarder) (action : Action) (id : PitId) (timer : TimerId)
    (old entry : PitEntry) : Prop where
  found : forwarder.pit.get? id = some old
  armed : old.unsatisfyTimer = some timer
  fewer : ∀ record, record ∈ entry.inRecords ↔
    record ∈ old.inRecords ∧ action ≠ .removeFace record.face
  awaited : old.inRecords ≠ [] → entry.inRecords ≠ []

theorem WaitsOn.of_same (found : forwarder.pit.get? id = some old)
    (armed : old.unsatisfyTimer = some timer) (records : entry.inRecords = old.inRecords)
    (stays : ∀ record ∈ old.inRecords, action ≠ .removeFace record.face) :
    WaitsOn forwarder action id timer old entry where
  found := found
  armed := armed
  fewer record := by
    rw [records]
    exact (and_iff_left_of_imp (stays record)).symm
  awaited waiting := by
    rw [records]
    exact waiting

/-- A face that goes away takes its downstream out of the entry, and the entry with it
when that was the last. -/
theorem Sound.waitsOn_removeFace (sound : Sound forwarder)
    (found : (forwarder.act (.removeFace face)).pit.get? id = some entry)
    (armed : entry.unsatisfyTimer = some timer) :
    ∃ old, WaitsOn forwarder (.removeFace face) id timer old entry := by
  cases removed : forwarder.removeFace face with
  | ok after =>
    rw [act_removeFace removed, (removeFace_spec sound.matched removed).2.2.2] at found
    obtain ⟨old, here, left⟩ := Option.bind_eq_some_iff.mp found
    unfold PitEntry.forget at left
    split at left
    · cases left
    · rename_i others
      cases left
      refine ⟨old, here, armed, fun record => ?_, fun waiting bare => others ?_⟩
      · rw [ne_eq, Action.removeFace.injEq, eq_comm]
        exact List.mem_filter.trans (and_congr_right fun _ => bne_iff_ne)
      · rw [List.isEmpty_eq_false_iff.mpr waiting, show (old.deleteInRecord face).inRecords = [] from bare]
        rfl
  | error error =>
    have still : forwarder.act (.removeFace face) = forwarder := by
      simp only [Forwarder.act, removed, Except.toOption, Option.getD_none]
    rw [still] at found
    refine ⟨entry, .of_same found armed rfl fun record member => ?_⟩
    -- The face is not there, and those of downstreams are.
    rintro ⟨rfl⟩
    rw [Forwarder.removeFace, if_pos ((sound.recorded found).inFaces member)] at removed
    cases removed

/-- An action that leaves the timer of an entry running has set it on time, or has left
the wait as it was. -/
theorem Sound.timer_step (sound : Sound forwarder) (action : Action)
    (found : (forwarder.act action).pit.get? id = some entry)
    (armed : entry.unsatisfyTimer = some timer) :
    entry.lastInRecordExpiry? = some timer.deadline ∨
      ∃ old, WaitsOn forwarder action id timer old entry := by
  have stays {action : Action} {old : PitEntry} (other : ∀ face, action ≠ .removeFace face)
      (here : forwarder.pit.get? id = some old) (timers : entry.unsatisfyTimer = old.unsatisfyTimer)
      (records : entry.inRecords = old.inRecords) :
      entry.lastInRecordExpiry? = some timer.deadline ∨
        ∃ old, WaitsOn forwarder action id timer old entry :=
    Or.inr ⟨old, .of_same here (timers.symm.trans armed) records fun record _ => other record.face⟩
  by_cases leaves : ∃ face, action = .removeFace face
  · obtain ⟨face, rfl⟩ := leaves
    exact Or.inr (sound.waitsOn_removeFace found armed)
  · rw [not_exists] at leaves
    rcases sound.quiet_or_touches id action with quiet | touches
    · exact stays leaves (quiet.entry.symm.trans found) rfl rfl
    · cases touches with
      | joins judged mine =>
        subst mine
        exact Or.inl (endsOnTime_receiveInterest sound.matched (Or.inl judged) _ _ found armed)
      | asks judged mine =>
        subst mine
        exact Or.inl (endsOnTime_receiveInterest sound.matched (Or.inr judged) _ _ found armed)
      | @answers source data accepts under =>
        have fanned := sound.fannedOut source data accepts.1 accepts.2
        cases before : forwarder.pit.get? id with
        | none => cases found.symm.trans (fanned.gone id before)
        | some old =>
          obtain ⟨_, _, _, settled⟩ := fanned.settled id old before under
          cases found.symm.trans settled
          cases armed
      | @leaves face _ removed => exact absurd rfl (leaves face)
      | sends face hint newNonce =>
        rcases unsatisfyTimer_sendInterest found with ⟨old, here, timers, records⟩
        exact stays leaves here timers records
      | rejects =>
        rcases unsatisfyTimer_reject found with kept | stopped
        · exact stays leaves kept rfl rfl
        · rw [stopped] at armed
          cases armed
      | ends popped mine =>
        subst mine
        rw [act_fireNext_of_popDue? popped, (ended_fire sound.matched popped).gone] at found
        cases found

/-- After one part of a run the timer that ends the wait for an entry was set for when
the last of its downstreams would give up. In the other part nobody joined or was
renewed, and whoever left went with its face, but not everybody. -/
structure LastSet (start : Forwarder) (earlier later : List Action) (id : PitId) (timer : TimerId)
    (past entry : PitEntry) : Prop where
  found : (start.run earlier).pit.get? id = some past
  armed : past.unsatisfyTimer = some timer
  onTime : past.lastInRecordExpiry? = some timer.deadline
  stayed : ∀ record, record ∈ entry.inRecords ↔
    record ∈ past.inRecords ∧ Action.removeFace record.face ∉ later
  awaited : entry.inRecords ≠ []

theorem LastSet.here (found : (start.run history).pit.get? id = some entry)
    (armed : entry.unsatisfyTimer = some timer)
    (onTime : entry.lastInRecordExpiry? = some timer.deadline) :
    LastSet start history [] id timer entry entry where
  found := found
  armed := armed
  onTime := onTime
  stayed _ := (and_iff_left List.not_mem_nil).symm
  awaited bare := by
    rw [PitEntry.lastInRecordExpiry?, bare] at onTime
    cases onTime

theorem LastSet.step {earlier later : List Action} {past : PitEntry}
    (last : LastSet start earlier later id timer past old)
    (waits : WaitsOn forwarder action id timer old entry) :
    LastSet start earlier (later ++ [action]) id timer past entry where
  found := last.found
  armed := last.armed
  onTime := last.onTime
  stayed record := by
    rw [waits.fewer, last.stayed, List.mem_append, List.mem_singleton, not_or, and_assoc, ne_comm]
  awaited := waits.awaited last.awaited

variable {settings : Settings} {contentStore : ContentStore} {counters : Counters}
  {nonces : NonceSource}

theorem exists_lastSet (made : withParts settings contentStore counters nonces = .ok start)
    (history : List Action) (found : (start.run history).pit.get? id = some entry)
    (armed : entry.unsatisfyTimer = some timer) :
    ∃ earlier later past, history = earlier ++ later ∧
      LastSet start earlier later id timer past entry := by
  induction history using List.reverseRecOn generalizing entry with
  | nil =>
    rw [show start.run [] = start from rfl, get?_start made] at found
    cases found
  | append_singleton history action ih =>
    have here := found
    rw [run_concat] at here
    rcases ((sound_start made).run history).timer_step action here armed with
      onTime | ⟨old, waits⟩
    · exact ⟨_, [], entry, (List.append_nil _).symm, .here found armed onTime⟩
    · obtain ⟨earlier, later, past, rfl, last⟩ := ih waits.found waits.armed
      exact ⟨earlier, later ++ [action], past, List.append_assoc _ _ _, last.step waits⟩

/-- The timer is still on time just when one of those who were to give up last is left. -/
theorem LastSet.onTime_iff {earlier later : List Action} {past : PitEntry}
    (last : LastSet start earlier later id timer past entry) :
    entry.lastInRecordExpiry? = some timer.deadline ↔
      ∃ record ∈ past.inRecords, record.expiry = timer.deadline ∧
        Action.removeFace record.face ∉ later := by
  constructor
  · intro latest
    obtain ⟨record, member, same⟩ := List.mem_map.mp (List.max?_eq_some_iff.mp latest).1
    obtain ⟨was, stays⟩ := (last.stayed record).mp member
    exact ⟨record, was, same, stays⟩
  · rintro ⟨record, was, same, stays⟩
    have member := (last.stayed record).mpr ⟨was, stays⟩
    refine List.max?_eq_some_iff.mpr ⟨same ▸ List.mem_map_of_mem member, fun expiry listed => ?_⟩
    obtain ⟨other, member', rfl⟩ := List.mem_map.mp listed
    exact PitEntry.expiry_le_last last.onTime ((last.stayed other).mp member').1

/-- How the timer that ends the wait for an entry follows its downstreams. It runs, and
goes off no earlier than the last of them gives up. It was set for just then, and since
it was set downstreams have only left, each with its face: it goes off later than the
last one left gives up just when all that were to give up last have left so. -/
structure FollowsDownstreams (start : Forwarder) (history : List Action) (id : PitId)
    (entry : PitEntry) (timer : TimerId) : Prop where
  runs : (start.run history).timers.running[timer]? = some (.unsatisfy id)
  covers : ∃ last, entry.lastInRecordExpiry? = some last ∧ last ≤ timer.deadline
  set : ∃ earlier later past, history = earlier ++ later ∧
    LastSet start earlier later id timer past entry ∧
    (entry.lastInRecordExpiry? = some timer.deadline ↔
      ∃ record ∈ past.inRecords, record.expiry = timer.deadline ∧
        Action.removeFace record.face ∉ later)

theorem LastSet.covers {earlier later : List Action} {past : PitEntry}
    (last : LastSet start earlier later id timer past entry) :
    ∃ expiry, entry.lastInRecordExpiry? = some expiry ∧ expiry ≤ timer.deadline := by
  obtain ⟨record, member⟩ := List.exists_mem_of_ne_nil _ last.awaited
  obtain ⟨expiry, latest⟩ := PitEntry.lastInRecordExpiry?_of_mem member
  obtain ⟨other, member', rfl⟩ := List.mem_map.mp (List.max?_eq_some_iff.mp latest).1
  exact ⟨_, latest, PitEntry.expiry_le_last last.onTime ((last.stayed other).mp member').1⟩

/-- The timer that ends the wait for an entry runs until the last of its downstreams
gives up, unless those that were to give up last have left with their faces. -/
theorem unsatisfy_timer_follows_downstreams
    (made : withParts settings contentStore counters nonces = .ok start) (history : List Action)
    (found : (start.run history).pit.get? id = some entry)
    (armed : entry.unsatisfyTimer = some timer) :
    FollowsDownstreams start history id entry timer := by
  have sound : Sound (start.run history) := (sound_start made).run history
  obtain ⟨event, running, owner, slot⟩ :=
    sound.matched.armed found (show entry.timer .unsatisfy = some timer from armed)
  obtain ⟨earlier, later, past, rfl, last⟩ := exists_lastSet made history found armed
  refine ⟨?_, last.covers, earlier, later, past, rfl, last, last.onTime_iff⟩
  cases event with
  | unsatisfy other =>
    rw [running, show other = id from owner]
  | straggler => cases slot

/-- Two downstreams wait, each for the lifetime of its Interest, and the first leaves with
its face. -/
def oneLeaves (first second : Duration) : List Action :=
  [.addFace { isLocal := false }, .addFace { isLocal := false }, .addFace { isLocal := false },
    .changeRoutes (·.addNextHop ⟨[[97]]⟩ { face := ⟨258⟩, cost := 1 }),
    .receiveInterest ⟨256⟩ { name := ⟨[[97]]⟩, nonce := 1, lifetime := some first },
    .receiveInterest ⟨257⟩ { name := ⟨[[97]]⟩, nonce := 2, lifetime := some second },
    .removeFace ⟨256⟩]

/-- The timer that ends the wait for an entry, and when the last downstream gives up. -/
def waitOf (forwarder : Forwarder) (id : PitId) : Option (TimerId × Instant) :=
  (forwarder.pit.get? id).bind fun entry =>
    entry.unsatisfyTimer.bind fun timer => entry.lastInRecordExpiry?.map (timer, ·)

theorem waitOf_eq_some {last : Instant} (waits : forwarder.waitOf id = some (timer, last)) :
    ∃ entry, forwarder.pit.get? id = some entry ∧ entry.unsatisfyTimer = some timer ∧
      entry.lastInRecordExpiry? = some last := by
  obtain ⟨entry, found, waits⟩ := Option.bind_eq_some_iff.mp waits
  obtain ⟨_, armed, waits⟩ := Option.bind_eq_some_iff.mp waits
  obtain ⟨_, latest, same⟩ := Option.map_eq_some_iff.mp waits
  cases same
  exact ⟨entry, found, armed, latest⟩

theorem unsatisfy_timer_follows_downstreams_of_two :
    ∃ entry timer, (usual.run (oneLeaves (.ofMillis 1000) (.ofMillis 10000))).pit.get?
        ⟨1, ⟨[[97]]⟩⟩ = some entry ∧
      entry.unsatisfyTimer = some timer ∧ entry.lastInRecordExpiry? = some (.ofMillis 10000) ∧
      FollowsDownstreams usual (oneLeaves (.ofMillis 1000) (.ofMillis 10000)) ⟨1, ⟨[[97]]⟩⟩
        entry timer := by
  have waits : (usual.run (oneLeaves (.ofMillis 1000) (.ofMillis 10000))).waitOf ⟨1, ⟨[[97]]⟩⟩ =
      some (⟨.ofMillis 10000, 2⟩, .ofMillis 10000) := by decide +kernel
  obtain ⟨entry, found, armed, latest⟩ := waitOf_eq_some waits
  exact ⟨entry, _, found, armed, latest,
    unsatisfy_timer_follows_downstreams ofSettings_usual _ found armed⟩

/-- The timer that ends the wait outlives the downstreams when the one that was to give
up last has left with its face. -/
theorem unsatisfy_timer_outlives_downstreams :
    ∃ entry timer, (usual.run (oneLeaves (.ofMillis 10000) (.ofMillis 1000))).pit.get?
        ⟨1, ⟨[[97]]⟩⟩ = some entry ∧
      entry.unsatisfyTimer = some timer ∧ timer.deadline = .ofMillis 10000 ∧
      entry.lastInRecordExpiry? = some (.ofMillis 1000) := by
  have waits : (usual.run (oneLeaves (.ofMillis 10000) (.ofMillis 1000))).waitOf ⟨1, ⟨[[97]]⟩⟩ =
      some (⟨.ofMillis 10000, 2⟩, .ofMillis 1000) := by decide +kernel
  obtain ⟨entry, found, armed, latest⟩ := waitOf_eq_some waits
  exact ⟨entry, _, found, armed, rfl, latest⟩

end Forwarder

end NamedData
