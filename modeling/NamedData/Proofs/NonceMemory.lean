import NamedData.Proofs.Handouts

namespace NamedData

/-- What never goes back: the clock and the numbers that entries are given. Of the
nonces that are noted only old ones go. -/
structure Onward (before after : Forwarder) : Prop where
  now : before.now ≤ after.now
  created : before.pit.created ≤ after.pit.created
  notes : before.deadNonces.Updated after.now after.deadNonces

variable {before after : Forwarder}

theorem Onward.of_same (timers : after.timers = before.timers) (pit : after.pit = before.pit)
    (deadNonces : after.deadNonces = before.deadNonces) : Onward before after where
  now := Nat.le_of_eq (congrArg (fun timers : Timers TimerEvent => timers.now.nanos) timers.symm)
  created := Nat.le_of_eq (by rw [pit])
  notes := by rw [deadNonces]; exact .noted []

theorem Steady.onward (steady : Steady before after) : Onward before after where
  now := by rw [steady.now]; exact Nat.le_refl _
  created := steady.created
  notes := by
    obtain ⟨keys, noted⟩ := steady.noted
    rw [noted, steady.now]
    exact .noted keys

namespace Forwarder

theorem onward_receiveData (sound : Sound before) (face : FaceId) (data : Data) :
    Onward before (before.receiveData face data) := by
  rcases before.receiveData_cases face data with
    ⟨contentStore, counters, same, _⟩ | ⟨contentStore, counters, _, _, _, same⟩
  · rw [same]
    exact .of_same rfl rfl rfl
  · obtain ⟨ids, isIds⟩ : ∃ ids, ids = before.pit.dataMatches data.name := ⟨_, rfl⟩
    have cached : Sound { before with contentStore, counters } := sound.of_same rfl rfl rfl
    obtain ⟨_, steady, _⟩ :=
      satisfyAll_spec cached.matched face { data with incomingFace := some face } ids
    obtain ⟨outbox, counted, sends, _⟩ := (ids.foldl
      (satisfy face { data with incomingFace := some face })
      { before with contentStore, counters }).sendAll_spec { data with incomingFace := some face }
        ((before.waitingFaces ids).filter (· != face))
    rw [same, ← isIds, sends]
    have settled := steady.onward
    exact ⟨settled.now, settled.created, settled.notes⟩

theorem onward_fire (sound : Sound before) {limit : Instant} {timer : Timer TimerEvent}
    {rest : Timers TimerEvent} (popped : before.timers.popDue? limit = some (timer, rest)) :
    Onward before ({ before with timers := rest }.fire timer.payload) := by
  have ended := (ended_fire sound.matched popped).change.toSteady.onward
  have later : before.now ≤ rest.now := by
    rw [(Timers.popDue?_eq_some popped).2.2]
    exact Std.left_le_max
  exact ⟨Nat.le_trans later ended.now, ended.created, ended.notes⟩

/-- Whatever happens, neither the clock nor the numbering goes back. -/
theorem Sound.onward (sound : Sound before) (action : Action) :
    Onward before (before.act action) := by
  cases action with
  | addFace face => exact .of_same rfl rfl rfl
  | addReservedFace id face =>
    simp only [Forwarder.act, Forwarder.addReservedFace]
    split <;> exact .of_same rfl rfl rfl
  | removeFace face =>
    simp only [Forwarder.act]
    cases removed : before.removeFace face with
    | error error => exact .of_same rfl rfl rfl
    | ok after =>
      obtain ⟨_, steady, _⟩ := removeFace_spec sound.matched removed
      have left := steady.onward
      exact ⟨left.now, left.created, left.notes⟩
  | changeRoutes change => exact .of_same rfl rfl rfl
  | changeStrategies change => exact .of_same rfl rfl rfl
  | receiveInterest face interest =>
    show Onward before (before.receiveInterest face interest)
    rcases before.receiveInterest_cases face interest with ⟨change, same⟩ | ⟨kept, judged⟩
    · rw [same]
      exact .of_same rfl rfl rfl
    · obtain ⟨records, upkept⟩ :=
        upkept_receiveInterest sound.matched (sound.entryFor interest.name) judged
      exact upkept.change.toSteady.onward
  | receiveData face data => exact onward_receiveData sound face data
  | receiveUnsolicited face data =>
    show Onward before (before.receiveUnsolicited face data)
    unfold receiveUnsolicited
    dsimp only
    split <;> exact .of_same rfl rfl rfl
  | sendInterest id face hint newNonce =>
    exact (before.local_sendInterest id face hint newNonce).toSteady.onward
  | reject id =>
    show Onward before (before.reject id)
    cases found : before.pit.get? id with
    | some entry => exact (sound.upkept found).reject.change.toSteady.onward
    | none =>
      simp only [Forwarder.reject, found]
      exact .of_same rfl rfl rfl
  | sendData data face => exact (before.local_sendData ⟨0, data.name⟩ data face).toSteady.onward
  | collect face wanted => exact .of_same rfl rfl rfl
  | fireNext limit =>
    simp only [Forwarder.act]
    split
    · exact .of_same rfl rfl rfl
    · rename_i timer rest popped
      exact onward_fire sound popped
  | passTime time =>
    simp only [Forwarder.act]
    split
    · exact .of_same rfl rfl rfl
    · exact ⟨Std.left_le_max, Nat.le_refl _, .evicted⟩

theorem Sound.now_le_run (sound : Sound before) (actions : List Action) :
    before.now ≤ (before.run actions).now := by
  induction actions generalizing before with
  | nil => exact Nat.le_refl _
  | cons action rest ih => exact Nat.le_trans (sound.onward action).now (ih (sound.act action))

variable {forwarder : Forwarder} {id : PitId} {action : Action}

/-- The handle of an entry that has ended never names an entry again. -/
theorem Sound.gone_act (sound : Sound forwarder) (gone : forwarder.pit.get? id = none)
    (old : id.number ≤ forwarder.pit.created) (action : Action) :
    (forwarder.act action).pit.get? id = none := by
  -- An entry that is made gets a number above all that were given.
  have made : ∀ name, (forwarder.pit.insert name).1 ≠ id := by
    intro name mine
    have missing : forwarder.pit.get? (forwarder.pit.insert name).1 = none := by rw [mine]; exact gone
    have new := sound.matched.filed.number_insert missing
    rw [mine] at new
    omega
  rcases sound.quiet_or_touches id action with quiet | touches
  · exact quiet.entry.trans gone
  · cases touches with
    | joins _ mine => exact absurd mine (made _)
    | asks _ mine => exact absurd mine (made _)
    | @answers source data accepts _ =>
      exact (sound.fannedOut source data accepts.1 accepts.2).gone id gone
    | @leaves face after removed =>
      obtain ⟨_, _, _, entries⟩ := removeFace_spec sound.matched removed
      rw [act_removeFace removed, entries, gone, Option.bind_none]
    | sends face hint newNonce =>
      simp only [Forwarder.act, Forwarder.sendInterest, gone]
    | rejects => simp only [Forwarder.act, Forwarder.reject, gone]
    | @ends limit timer rest popped mine =>
      obtain ⟨entry, found, _⟩ := popped_owner sound.matched popped
      rw [mine, gone] at found
      cases found

/-- An entry that is there at the end of a run, and was there at its start, was
there all along. -/
theorem Sound.live_of_run (sound : Sound forwarder) (old : id.number ≤ forwarder.pit.created)
    {actions : List Action} (live : ∃ entry, (forwarder.run actions).pit.get? id = some entry) :
    ∃ entry, forwarder.pit.get? id = some entry := by
  induction actions generalizing forwarder with
  | nil => exact live
  | cons action rest ih =>
    have later := ih (sound.act action) (Nat.le_trans old (sound.onward action).created) live
    cases found : forwarder.pit.get? id with
    | some entry => exact ⟨entry, rfl⟩
    | none =>
      obtain ⟨entry, here⟩ := later
      rw [sound.gone_act found old action] at here
      cases here

theorem Sound.notes_run (sound : Sound forwarder)
    (chronicled : forwarder.deadNonces.Chronicled forwarder.now) (actions : List Action) :
    (forwarder.run actions).deadNonces.Chronicled (forwarder.run actions).now ∧
      (forwarder.run actions).deadNonces.lifetime = forwarder.deadNonces.lifetime ∧
      (forwarder.run actions).deadNonces.capacity = forwarder.deadNonces.capacity := by
  induction actions generalizing forwarder with
  | nil => exact ⟨chronicled, rfl, rfl⟩
  | cons action rest ih =>
    have onward := sound.onward action
    obtain ⟨lifetime, capacity⟩ := onward.notes.setup
    obtain ⟨chronicled', lifetime', capacity'⟩ :=
      ih (sound.act action) (onward.notes.chronicled (chronicled.mono onward.now))
    exact ⟨chronicled', lifetime'.trans lifetime, capacity'.trans capacity⟩

/-- A nonce that is listed stays listed for its lifetime while the list has room. -/
theorem Sound.listed_run (sound : Sound forwarder)
    (chronicled : forwarder.deadNonces.Chronicled forwarder.now) {actions : List Action}
    {key : RequestKey} {time : Instant} (listed : forwarder.deadNonces.latest[key]? = some time)
    (past : time ≤ forwarder.now)
    (recent : (forwarder.run actions).now < time + forwarder.deadNonces.lifetime)
    (roomy : ∀ earlier rest, actions = earlier ++ rest →
      (forwarder.run earlier).deadNonces.size < forwarder.deadNonces.capacity) :
    ∃ later, (forwarder.run actions).deadNonces.latest[key]? = some later := by
  -- A nonce that is noted again is listed with the later time.
  induction actions generalizing forwarder time with
  | nil => exact ⟨time, listed⟩
  | cons action rest ih =>
    have onward := sound.onward action
    have chronicled' := chronicled.mono onward.now
    obtain ⟨lifetime, capacity⟩ := onward.notes.setup
    have before : (forwarder.act action).now ≤ (forwarder.run (action :: rest)).now :=
      (sound.act action).now_le_run rest
    obtain ⟨later, listed', after, past'⟩ := onward.notes.keeps chronicled' (roomy [action] rest rfl)
      listed (Nat.le_trans past onward.now) (Nat.lt_of_le_of_lt before recent)
    refine ih (sound.act action) (onward.notes.chronicled chronicled') listed' past' ?_ ?_
    · rw [lifetime]
      exact Duration.lt_add_of_le after recent
    · intro earlier more same
      rw [capacity]
      exact roomy (action :: earlier) more (by rw [same]; rfl)

theorem noted_finalize {entry : PitEntry} (found : forwarder.pit.get? id = some entry)
    (named : entry.name = id.name) (freshness : Option Duration) :
    ∃ keys, (forwarder.finalize id false freshness).deadNonces =
        forwarder.deadNonces.addAll keys forwarder.now ∧
      ∀ record ∈ entry.outRecords, (id.name, record.nonce) ∈ keys := by
  refine ⟨outKeys entry none, ?_, ?_⟩
  · rw [finalize_eq found]
    exact deadNonces_noteDeadNonces found false freshness none
  · intro record member
    rw [← named]
    exact List.mem_map.mpr ⟨record, List.mem_filter.mpr ⟨member, rfl⟩, rfl⟩

/-- What an action that ends an entry leaves behind of it. -/
def NotedIn (id : PitId) (nonce : Nonce) (before after : Forwarder) : Prop :=
  ∃ keys, after.deadNonces = before.deadNonces.addAll keys after.now ∧ (id.name, nonce) ∈ keys

/-- A timer that goes off leaves the nonces of its entry behind, unless the entry
is counted as satisfied. -/
theorem noted_fire (sound : Sound forwarder) {limit : Instant} {timer : Timer TimerEvent}
    {rest : Timers TimerEvent} (popped : forwarder.timers.popDue? limit = some (timer, rest))
    {face : FaceId} {nonce : Nonce} (asked : forwarder.Asked timer.payload.entry face nonce)
    (unsatisfied : ({ forwarder with timers := rest }.fire timer.payload).counters.satisfiedInterests =
      forwarder.counters.satisfiedInterests) :
    NotedIn timer.payload.entry nonce forwarder
      ({ forwarder with timers := rest }.fire timer.payload) := by
  obtain ⟨entry, found, record, member, _, same⟩ := asked.live
  have now := (ended_fire sound.matched popped).change.now
  rw [NotedIn, now, ← same]
  cases kind : timer.payload with
  | straggler id satisfied freshness =>
    rw [kind] at found unsatisfied
    have here : { forwarder with timers := rest }.pit.get? id = some entry := found
    cases satisfied with
    | true =>
      have more := congrArg Counters.satisfiedInterests (counters_finalize here true freshness)
      rw [show (finalize _ id true freshness).counters.satisfiedInterests =
        forwarder.counters.satisfiedInterests from unsatisfied] at more
      exact absurd more (Nat.ne_of_lt (Nat.lt_succ_self _))
    | false =>
      obtain ⟨keys, noted, all⟩ := noted_finalize here (sound.matched.filed.named found) freshness
      exact ⟨keys, noted, all record member⟩
  | unsatisfy id =>
    rw [kind] at found
    obtain ⟨fib, expired⟩ := @expire_eq { forwarder with timers := rest } id entry found
    have named : entry.name = id.name := sound.matched.filed.named found
    have here := @get?_expiring { forwarder with timers := rest, fib } id entry found
    obtain ⟨keys, noted, all⟩ := noted_finalize here named none
    rw [← expired] at noted
    exact ⟨keys, noted, all record member⟩

variable {face : FaceId}

/-- An entry that loses its last downstream leaves its nonces behind, those of the
face that has gone away apart. -/
theorem noted_forgetFace (matched : Matched forwarder.pit forwarder.timers) (face : FaceId)
    (id : PitId) :
    ∃ keys, (forgetFace face forwarder id).deadNonces = forwarder.deadNonces.addAll keys forwarder.now ∧
      ∀ entry, forwarder.pit.get? id = some entry → entry.forget face = none →
        ∀ record ∈ entry.outRecords, record.face ≠ face → (id.name, record.nonce) ∈ keys := by
  rcases forwarder.forgetFace_cases face id with
    ⟨missing, _⟩ | ⟨entry, forgotten, found, rfl, ⟨_, same⟩ | ⟨left, _⟩⟩
  · obtain ⟨keys, noted⟩ := (forgetFace_spec matched face id).1.noted
    refine ⟨keys, noted, fun entry found => ?_⟩
    rw [missing] at found
    cases found
  · have here : (forwarder.updateEntry id fun entry =>
        (entry.deleteInRecord face).deleteOutRecord face).pit.get? id =
          some ((entry.deleteInRecord face).deleteOutRecord face) := by
      rw [get?_updateEntry, found]
      rfl
    have named : entry.name = id.name := matched.filed.named found
    obtain ⟨keys, noted, all⟩ := noted_finalize here named none
    rw [same]
    refine ⟨keys, noted, ?_⟩
    intro owner atId _ record member different
    rw [found] at atId
    cases atId
    exact all record (List.mem_filter.mpr ⟨member, bne_iff_ne.mpr different⟩)
  · obtain ⟨keys, noted⟩ := (forgetFace_spec matched face id).1.noted
    refine ⟨keys, noted, fun owner atId gone => ?_⟩
    rw [found] at atId
    cases atId
    rw [left] at gone
    cases gone

theorem noted_forgetAll (matched : Matched forwarder.pit forwarder.timers) (face : FaceId)
    (ids : List PitId) :
    ∃ keys, (ids.foldl (forgetFace face) forwarder).deadNonces =
        forwarder.deadNonces.addAll keys forwarder.now ∧
      ∀ id ∈ ids, ∀ entry, forwarder.pit.get? id = some entry → entry.forget face = none →
        ∀ record ∈ entry.outRecords, record.face ≠ face → (id.name, record.nonce) ∈ keys := by
  induction ids generalizing forwarder with
  | nil => exact ⟨[], rfl, fun _ impossible => by cases impossible⟩
  | cons first rest ih =>
    obtain ⟨change, matched', _⟩ := forgetFace_spec matched face first
    obtain ⟨keys, noted, mine⟩ := noted_forgetFace matched face first
    obtain ⟨more, noted', others⟩ := ih matched'
    refine ⟨keys ++ more, ?_, ?_⟩
    · rw [List.foldl_cons, noted', noted, change.now, DeadNonceList.addAll_append]
    · intro id listed entry found gone record member different
      by_cases same : id = first
      · subst same
        exact List.mem_append_left _ (mine entry found gone record member different)
      · have later := (List.mem_cons.mp listed).resolve_left same
        refine List.mem_append_right _ (others id later entry ?_ gone record member different)
        exact (change.entries id same).trans found

/-- An entry ends, and no entry is counted as satisfied. -/
structure Fails (forwarder : Forwarder) (id : PitId) (action : Action) : Prop where
  live : ∃ entry, forwarder.pit.get? id = some entry
  gone : (forwarder.act action).pit.get? id = none
  unsatisfied : (forwarder.act action).counters.satisfiedInterests =
    forwarder.counters.satisfiedInterests

/-- The nonces of an entry that is given up are noted, unless their faces go away
with it. -/
theorem Sound.noted_of_fails (sound : Sound forwarder) (fails : forwarder.Fails id action)
    {nonce : Nonce} (asked : forwarder.Asked id face nonce) (stays : action ≠ .removeFace face) :
    NotedIn id nonce forwarder (forwarder.act action) := by
  obtain ⟨entry, found, record, member, sameFace, sameNonce⟩ := asked.live
  have gone := fails.gone
  have absent : ∀ entry, (forwarder.act action).pit.get? id ≠ some entry := by
    intro entry here
    rw [gone] at here
    cases here
  rcases sound.quiet_or_touches id action with quiet | touches
  · exact absurd (quiet.entry.trans found) (absent entry)
  · cases touches with
    | joins judged mine =>
      obtain ⟨_, upkept⟩ := upkept_receiveInterest sound.matched (sound.entryFor _) (Or.inl judged)
      obtain ⟨_, here, _⟩ := upkept.entry
      rw [mine] at here
      exact absurd here (absent _)
    | asks judged mine =>
      obtain ⟨_, upkept⟩ := upkept_receiveInterest sound.matched (sound.entryFor _) (Or.inr judged)
      obtain ⟨_, here, _⟩ := upkept.entry
      rw [mine] at here
      exact absurd here (absent _)
    | @answers source data accepts under =>
      obtain ⟨_, _, _, here⟩ :=
        (sound.fannedOut source data accepts.1 accepts.2).settled id entry found under
      exact absurd here (absent _)
    | @leaves other after removed =>
      have different : record.face ≠ other := by
        intro same
        rw [sameFace] at same
        exact stays (by rw [same])
      obtain ⟨_, steady, _, entries⟩ := removeFace_spec sound.matched removed
      rw [act_removeFace removed] at gone ⊢
      rw [entries, found, Option.bind_some] at gone
      unfold Forwarder.removeFace at removed
      split at removed
      · cases removed
        obtain ⟨keys, noted, all⟩ := @noted_forgetAll { forwarder with
          faces := forwarder.faces.remove other, fib := forwarder.fib.removeFace other }
            sound.matched other forwarder.pit.ids
        have listed := Pit.mem_ids.mpr ⟨entry, found⟩
        refine ⟨keys, ?_, ?_⟩
        · rw [noted, steady.now]
        · rw [← sameNonce]
          exact all id listed entry found gone record member different
      · cases removed
    | sends other hint newNonce =>
      obtain ⟨_, here, _⟩ := ((sound.upkept found).sendInterest other hint newNonce).entry
      exact absurd here (absent _)
    | rejects =>
      obtain ⟨_, here, _⟩ := (sound.upkept found).reject.entry
      exact absurd here (absent _)
    | @ends limit timer rest popped mine =>
      have unsatisfied := fails.unsatisfied
      rw [act_fireNext_of_popDue? popped] at unsatisfied ⊢
      subst mine
      exact noted_fire sound popped asked unsatisfied

end Forwarder

end NamedData
