import NamedData.Proofs.Consultation
import NamedData.Proofs.Counting
import NamedData.Proofs.Origins

namespace NamedData

namespace Forwarder

variable {action : Action} {before after forwarder start : Forwarder} {id : PitId}
  {entry : PitEntry} {source face : FaceId} {interest : Interest} {data kept : Data}
  {history : List Action} {moment : Instant}

/-- An action takes Data into the store: Data that is taken in on a face and that some
entry waits for, or Data from the host. -/
inductive Caches (forwarder : Forwarder) : Action → Data → Prop
  | answer {source : FaceId} {data : Data} (accepts : forwarder.Accepts source data.name)
      (wanted : forwarder.pit.dataMatches data.name ≠ [] ∨ forwarder.faces.isLocal source = true) :
      Caches forwarder (.receiveData source data) { data with incomingFace := some source }
  | unasked {source : FaceId} {data : Data} (onHost : forwarder.faces.isLocal source = true) :
      Caches forwarder (.receiveUnsolicited source data) data

/-- What an action does to the store: it takes in the Data that it caches. -/
def Stores (action : Action) (before after : Forwarder) : Prop :=
  (∃ kept unsolicited, before.Caches action kept ∧
    after.contentStore = before.contentStore.insert kept unsolicited before.now) ∨
  (∀ kept, ¬ before.Caches action kept) ∧ after.contentStore = before.contentStore

theorem stores_receiveUnsolicited (source : FaceId) (data : Data) :
    Stores (.receiveUnsolicited source data) forwarder (forwarder.receiveUnsolicited source data) := by
  unfold receiveUnsolicited
  dsimp only
  split
  · rename_i onHost
    exact Or.inl ⟨data, true, .unasked onHost, rfl⟩
  · rename_i outside
    refine Or.inr ⟨fun kept caches => ?_, rfl⟩
    cases caches with
    | unasked onHost => exact outside onHost

theorem contentStore_receiveSolicited (source : FaceId) (data : Data) (ids : List PitId) :
    (forwarder.receiveSolicited source data ids).contentStore =
      forwarder.contentStore.insert data false forwarder.now := by
  obtain ⟨cached, isCached⟩ : ∃ cached, cached = { forwarder with
    contentStore := forwarder.contentStore.insert data false forwarder.now } := ⟨_, rfl⟩
  obtain ⟨_, _, _, settled⟩ := cached.satisfyAll_frame source data ids
  obtain ⟨_, _, sends, _⟩ := (ids.foldl (satisfy source data) cached).sendAll_spec data
    ((cached.waitingFaces ids).filter (· != source))
  unfold receiveSolicited
  dsimp only
  rw [← isCached, sends, settled, isCached]

theorem stores_receiveData (source : FaceId) (data : Data) :
    Stores (.receiveData source data) forwarder (forwarder.receiveData source data) := by
  unfold receiveData
  dsimp only
  split
  · rename_i absent
    refine Or.inr ⟨fun kept caches => ?_, rfl⟩
    cases caches with
    | answer accepts => simp [count, accepts.1] at absent
  · rename_i present
    split
    · rename_i barred
      refine Or.inr ⟨fun kept caches => ?_, rfl⟩
      cases caches with
      | answer accepts => exact accepts.2 (by simpa [count, Barred] using barred)
    · rename_i inScope
      have accepts : forwarder.Accepts source data.name :=
        ⟨by simpa [count] using present, by simpa [count, Barred] using inScope⟩
      split
      · rename_i unwanted
        unfold receiveUnsolicited
        dsimp only
        split
        · rename_i onHost
          exact Or.inl ⟨_, true, .answer accepts (Or.inr onHost), rfl⟩
        · rename_i outside
          refine Or.inr ⟨fun kept caches => ?_, rfl⟩
          cases caches with
          | answer _ wanted => exact wanted.elim (fun some => some unwanted) outside
      · rename_i wanted
        refine Or.inl ⟨_, false, .answer accepts (Or.inl wanted), ?_⟩
        exact contentStore_receiveSolicited source _ _

theorem Steps.contentStore_of_idle (steps : Steps action before after)
    (idle : ∀ source data, ¬ Brings source data action) :
    after.contentStore = before.contentStore := by
  induction steps with
  | refl => rfl
  | tail _ step ih =>
    rcases step.contentStore with same | ⟨source, data, _, brings, _⟩
    · exact same.trans ih
    · exact absurd brings (idle source data)

theorem stores_act (filed : forwarder.pit.Filed) (action : Action) :
    Stores action forwarder (forwarder.act action) := by
  have idle (none : ∀ source data, ¬ Brings source data action)
      (none' : ∀ kept, ¬ forwarder.Caches action kept) :
      Stores action forwarder (forwarder.act action) := by
    refine Or.inr ⟨none', ?_⟩
    rw [Steps.contentStore_of_idle (act_steps filed action) none, contentStore_begun]
  cases action with
  | receiveData source data => exact stores_receiveData source data
  | receiveUnsolicited source data => exact stores_receiveUnsolicited source data
  | _ => exact idle (fun _ _ brings => by cases brings) fun _ caches => by cases caches

/-- Data was taken into the store at a moment of a run, and after it no other Data of
its name. -/
def LastCached (start : Forwarder) (history : List Action) (data : Data) (moment : Instant) : Prop :=
  Latest Caches Data.name start history data moment

/-- What lies in the store was the last Data of its name to be taken in, and counts as
fresh for its freshness period from then on. -/
structure Stored (start : Forwarder) (history : List Action) (name : Name) (cached : CachedData) :
    Prop where
  room : (start.run history).contentStore.capacity ≠ 0
  named : cached.data.name = name
  last : ∃ moment, LastCached start history cached.data moment ∧
    cached.freshUntil = cached.data.freshness.map (moment + ·)

/-- An action takes Data of one name in at most. -/
theorem Caches.name_eq {later : Data} (caches : forwarder.Caches action kept)
    (caches' : forwarder.Caches action later) : later.name = kept.name := by
  cases caches <;> cases caches' <;> rfl

theorem Stored.keeps {name : Name} {cached : CachedData} (stored : Stored start history name cached)
    (capacity : ((start.run history).act action).contentStore.capacity =
      (start.run history).contentStore.capacity)
    (others : ∀ later, (start.run history).Caches action later → later.name ≠ name) :
    Stored start (history ++ [action]) name cached := by
  obtain ⟨moment, last, limit⟩ := stored.last
  refine ⟨?_, stored.named, moment, .kept last ?_, limit⟩
  · rw [run_concat, capacity]
    exact stored.room
  · rw [stored.named]
    exact others

theorem stored_step (sound : Sound (start.run history))
    (stored : ∀ {name : Name} {cached : CachedData},
      (start.run history).contentStore.cached[name]? = some cached → Stored start history name cached)
    (action : Action) {name : Name} {cached : CachedData}
    (found : (start.run (history ++ [action])).contentStore.cached[name]? = some cached) :
    Stored start (history ++ [action]) name cached := by
  rw [run_concat] at found
  rcases stores_act sound.matched.filed action with ⟨kept, unsolicited, caches, same⟩ | ⟨idle, same⟩
  · have capacity := congrArg ContentStore.capacity same
    rw [ContentStore.capacity_insert] at capacity
    rw [same] at found
    by_cases room : (start.run history).contentStore.capacity = 0
    · rw [ContentStore.insert, if_pos room] at found
      exact absurd room (stored found).room
    · rcases ContentStore.row_insert ⟨kept, unsolicited, _⟩ room found with
        ⟨rfl, rfl⟩ | ⟨different, old⟩
      · refine ⟨?_, rfl, (start.run history).now, .done caches, rfl⟩
        rw [run_concat, capacity]
        exact room
      · refine (stored old).keeps capacity fun later caches' same => different ?_
        rw [← same, caches.name_eq caches']
  · rw [same] at found
    exact (stored found).keeps (by rw [same]) fun later caches => absurd caches (idle later)

/-- What lies in a store that was empty at first was taken in by the run. -/
theorem Sound.stored (sound : Sound start) (empty : start.contentStore.cached = ∅)
    (history : List Action) {name : Name} {cached : CachedData}
    (found : (start.run history).contentStore.cached[name]? = some cached) :
    Stored start history name cached := by
  induction history using List.reverseRecOn generalizing name cached with
  | nil =>
    rw [show (start.run []).contentStore.cached = ∅ from empty] at found
    simp at found
  | append_singleton history action ih => exact stored_step (sound.run history) ih action found

/-- A request that the cache has Data for, while nobody waits, is answered from it. -/
theorem handleRequest_hit (matched : Matched forwarder.pit forwarder.timers)
    (idle : (forwarder.entryFor interest.name).hasUnexpiredInRecords forwarder.now = false)
    (found : forwarder.contentStore.find? interest forwarder.now = some data) :
    forwarder.handleRequest source interest = ((forwarder.reopen interest.name).count
        fun counters => { counters with cacheHits := counters.cacheHits + 1 }).answerFromCache
          (forwarder.pit.insert interest.name).1 source interest data := by
  obtain ⟨_, _, frame⟩ := forwarder.reopen_frame interest.name
  have cached : (forwarder.reopen interest.name).contentStore = forwarder.contentStore := by rw [frame]
  have now := (local_reopen matched interest.name).now
  have nobody : ((forwarder.reopen interest.name).pit.get? (forwarder.pit.insert interest.name).1).any
      (·.hasUnexpiredInRecords (forwarder.reopen interest.name).now) = false := by
    rw [get?_reopen matched, now, Option.any_some]
    exact idle
  have hit : (forwarder.reopen interest.name).contentStore.find? interest
      (forwarder.reopen interest.name).now = some data := by
    rw [cached, now, found]
  unfold handleRequest
  dsimp only
  rw [← reopen, nobody, hit]
  rfl

theorem cacheHits_sendInterest (hint : Option String) (newNonce : Bool) :
    (forwarder.sendInterest id face hint newNonce).counters.cacheHits =
      forwarder.counters.cacheHits := by
  unfold sendInterest
  split
  · rfl
  · split
    · rfl
    · split
      · rfl
      · split
        · rfl
        · split
          · rfl
          · rw [emitInterest_eq]

theorem cacheHits_reject : (forwarder.reject id).counters.cacheHits = forwarder.counters.cacheHits := by
  unfold reject
  split
  · rfl
  · split
    · rfl
    · rw [counters_setStragglerTimer, counters_cancelTimers]
      rfl

/-- Asking onward is no hit. -/
theorem cacheHits_askOnward :
    (forwarder.askOnward id source interest).counters.cacheHits = forwarder.counters.cacheHits := by
  refine afterReceiveInterest_keeps
    (fun here => here.counters.cacheHits = forwarder.counters.cacheHits) ?_ ?_ _ _ ?_
  · exact fun here hop same _ => (cacheHits_sendInterest hop.targetHint false).trans same
  · exact fun here same _ => cacheHits_reject.trans same
  · rw [counters_setUnsatisfyTimer]
    rfl

/-- A hit of the cache is counted only for a request that nobody else waits for, and
that it has Data for. -/
theorem hit_of_cacheHits (sound : Sound forwarder)
    (hit : (forwarder.receiveInterest source interest).counters.cacheHits ≠
      forwarder.counters.cacheHits) :
    forwarder.judge source interest = .request (forwarder.admitted source interest) ∧
      (forwarder.entryFor interest.name).hasUnexpiredInRecords forwarder.now = false ∧
      ∃ data, forwarder.contentStore.find? (forwarder.admitted source interest) forwarder.now =
        some data := by
  have matched : Matched forwarder.received.pit forwarder.received.timers := sound.matched
  cases judged : forwarder.judge source interest with
  | request kept =>
    obtain ⟨rfl, _⟩ := judge_letIn (Or.inr judged)
    refine ⟨rfl, ?_⟩
    by_cases missed : (forwarder.entryFor interest.name).hasUnexpiredInRecords forwarder.now = true ∨
        forwarder.contentStore.find? (forwarder.admitted source interest) forwarder.now = none
    · obtain ⟨misses, asked⟩ := @handleRequest_missed forwarder.received source
        (forwarder.admitted source interest) matched missed
      obtain ⟨_, _, reopened⟩ := forwarder.received.reopen_frame interest.name
      rw [receiveInterest_request judged, asked, cacheHits_askOnward] at hit
      exact absurd (by rw [count, show (forwarder.admitted source interest).name = interest.name
        from rfl, reopened]; rfl) hit
    · obtain ⟨waits, unknown⟩ := not_or.mp missed
      exact ⟨by simpa using waits, Option.ne_none_iff_exists'.mp unknown⟩
  | duplicate kept =>
    rw [receiveInterest_duplicate judged, joinDuplicate_eq, counters_setUnsatisfyTimer] at hit
    exact absurd rfl hit
  | _ =>
    simp only [receiveInterest, judge_count, judged] at hit
    exact absurd rfl hit

/-- The cache has settled an entry: nobody waits and no timer ends a wait, and it
lingers as satisfied for as long as a straggler may take. -/
structure Settles (id : PitId) (freshness : Option Duration) (before after : Forwarder) : Prop where
  lingers : ∃ entry timer, after.pit.get? id = some entry ∧ entry.inRecords = [] ∧
    entry.unsatisfyTimer = none ∧ entry.stragglerTimer = some timer ∧
    timer.deadline = before.now + before.settings.stragglerDelay ∧
    after.timers.running[timer]? = some (.straggler id true freshness)

theorem settles_answerFromCache (found : forwarder.pit.get? id = some entry)
    (stopped : entry.unsatisfyTimer = none) :
    Settles id data.freshness forwarder (forwarder.answerFromCache id source interest data) := by
  obtain ⟨cleared, isCleared⟩ : ∃ cleared, cleared =
    (forwarder.addInRecord id source interest).updateEntry id (·.clearInRecords) := ⟨_, rfl⟩
  obtain ⟨kept, isKept⟩ : ∃ kept, kept = (entry.addInRecord source interest forwarder.now
    (forwarder.lifetimeOf interest)).clearInRecords := ⟨_, rfl⟩
  have here : cleared.pit.get? id = some kept := by
    rw [isCleared, get?_updateEntry, addInRecord, get?_updateEntry, found, isKept]
    rfl
  have answers : forwarder.answerFromCache id source interest data =
      (cleared.setStragglerTimer id true data.freshness).sendData
        { data with incomingFace := some FaceId.contentStore } source := by
    rw [isCleared]
    rfl
  have owner : cleared.pit.get? (TimerEvent.straggler id true data.freshness).entry = some kept := here
  rw [answers, sendData_eq, setStragglerTimer_eq true data.freshness here]
  refine ⟨_, cleared.nextTimer (cleared.now + cleared.settings.stragglerDelay), get?_rearm _ owner,
    ?_, ?_, rfl, ?_, ?_⟩
  · rw [isKept]
    rfl
  · rw [isKept]
    exact stopped
  · rw [isCleared]
    exact Duration.max_add_left _ _
  · refine (running_rearm kept _ _ _).trans (if_pos rfl)

/-- Data that stays on the host can be asked for from outside under the root only. -/
theorem root_of_barred {name longer : Name} (under : name.isPrefixOf longer = true)
    (inside : Name.localhost.isPrefixOf longer = true)
    (outside : Name.localhost.isPrefixOf name = false) : name = .root := by
  obtain ⟨components⟩ := name
  rw [Name.isPrefixOf, List.isPrefixOf_iff_prefix] at under inside
  rcases List.prefix_or_prefix_of_prefix under inside with ⟨rest, same⟩ | longer'
  · cases components with
    | nil => rfl
    | cons first more =>
      -- The name would be `/localhost` itself.
      obtain ⟨rfl, nothing⟩ := List.cons_eq_cons.mp same
      rw [(List.append_eq_nil_iff.mp nothing).1] at outside
      exact absurd outside (by decide)
  · rw [Name.isPrefixOf, List.isPrefixOf_iff_prefix.mpr longer'] at outside
    cases outside

/-- What a hit of the cache makes of an Interest. The Data was taken into the store by
the run, its name extends the one asked for, and it is fresh when that is asked for. It
is all that is sent, back to where the Interest came from, and the entry is settled.
Only where the Data stays on the host and its receiver is outside, nothing is sent. -/
structure Served (start : Forwarder) (history : List Action) (face : FaceId) (interest : Interest)
    (data : Data) (before after : Forwarder) : Prop where
  under : interest.name.isPrefixOf data.name = true
  cached : ∃ moment, LastCached start history data moment ∧ (interest.mustBeFresh = true →
    ∃ period, data.freshness = some period ∧ before.now - moment < period)
  sent : ¬ before.Barred face data.name → after.outbox.sent =
    before.outbox.sent ++ [(face, .data { data with incomingFace := none })]
  barred : before.Barred face data.name → interest.name = .root ∧ after.outbox = before.outbox ∧
    after.counters.scopeViolations = before.counters.scopeViolations + 1
  settled : ∃ id, after.pit.find? interest.name = some id ∧ Settles id data.freshness before after

/-- Data that counts as fresh was taken in less than its freshness period ago. -/
theorem recent_of_isFresh {cached : CachedData} {now : Instant} (fresh : cached.isFresh now = true)
    (limit : cached.freshUntil = cached.data.freshness.map (moment + ·)) (past : moment ≤ now) :
    ∃ period, cached.data.freshness = some period ∧ now - moment < period := by
  obtain ⟨period, given, early⟩ := (CachedData.isFresh_iff limit).mp fresh
  refine ⟨period, given, ?_⟩
  rw [Duration.lt_def, Duration.nanos_add] at early
  rw [Duration.le_def] at past
  rw [Duration.lt_def, Duration.nanos_sub]
  omega

/-- Data that the cache found was taken in by the run, and is fresh if it has to be. -/
theorem cached_of_find? (sound : Sound start) (empty : start.contentStore.cached = ∅)
    (found : (start.run history).contentStore.find? interest (start.run history).now = some data) :
    interest.name.isPrefixOf data.name = true ∧
      ∃ moment, LastCached start history data moment ∧ (interest.mustBeFresh = true →
        ∃ period, data.freshness = some period ∧ (start.run history).now - moment < period) := by
  obtain ⟨name, cached, row, rfl, under, fresh⟩ := ContentStore.row_of_find? found
  have stored := sound.stored empty history row
  obtain ⟨moment, last, limit⟩ := stored.last
  rw [stored.named]
  exact ⟨under, moment, last, fun wanted =>
    recent_of_isFresh (fresh wanted) limit (Latest.le_now last sound)⟩

/-- A send of Data out of a face that is there hands the Data out, or is barred and
counted as such. -/
theorem sendData_cases (reachable : forwarder.isReachable face = true) :
    (¬ forwarder.Barred face data.name → (forwarder.sendData data face).outbox.sent =
      forwarder.outbox.sent ++ [(face, .data { data with incomingFace := none })]) ∧
    (forwarder.Barred face data.name → ∃ counters, forwarder.sendData data face =
        { forwarder with counters } ∧
      counters.scopeViolations = forwarder.counters.scopeViolations + 1) := by
  constructor
  · intro free
    rw [sent_sendData, if_pos]
    rw [maySend, reachable, Bool.true_and]
    cases onHost : forwarder.faces.isLocal face with
    | true => rfl
    | false => simpa [Barred, onHost] using free
  · rintro ⟨outside, inside⟩
    refine ⟨{ forwarder.counters with
      scopeViolations := forwarder.counters.scopeViolations + 1 }, ?_, rfl⟩
    simp only [sendData, reachable, outside, inside, Bool.not_true, Bool.false_eq_true, if_false,
      Bool.not_false, Bool.and_self, if_true]
    rfl

/-- The answer of the cache is sent in a state in which faces, what was sent before and
the violations of scope are as they were. -/
theorem answerFromCache_eq (id : PitId) (face : FaceId) (interest : Interest) (data : Data) :
    ∃ settled : Forwarder, forwarder.answerFromCache id face interest data =
        settled.sendData { data with incomingFace := some FaceId.contentStore } face ∧
      settled.faces = forwarder.faces ∧ settled.outbox = forwarder.outbox ∧
      settled.counters = forwarder.counters := by
  obtain ⟨_, _, lingers⟩ := ((forwarder.addInRecord id face interest).updateEntry id
    (·.clearInRecords)).setStragglerTimer_frame id true data.freshness
  refine ⟨_, rfl, ?_⟩
  dsimp only [Strategy.beforeSatisfyInterest]
  rw [lingers]
  exact ⟨rfl, rfl, rfl⟩

theorem receiveInterest_hit (matched : Matched forwarder.pit forwarder.timers)
    (judged : forwarder.judge source interest = .request (forwarder.admitted source interest))
    (idle : (forwarder.entryFor interest.name).hasUnexpiredInRecords forwarder.now = false)
    (found : forwarder.contentStore.find? (forwarder.admitted source interest) forwarder.now =
      some data) :
    forwarder.receiveInterest source interest = ((forwarder.received.reopen interest.name).count
        fun counters => { counters with cacheHits := counters.cacheHits + 1 }).answerFromCache
          (forwarder.pit.insert interest.name).1 source (forwarder.admitted source interest) data :=
  (receiveInterest_request judged).trans
    (@handleRequest_hit forwarder.received source (forwarder.admitted source interest) data matched
      idle found)

/-- A hit of the cache sends what was found and settles the entry. -/
theorem Sound.served (sound : Sound forwarder)
    (judged : forwarder.judge source interest = .request (forwarder.admitted source interest))
    (idle : (forwarder.entryFor interest.name).hasUnexpiredInRecords forwarder.now = false)
    (found : forwarder.contentStore.find? (forwarder.admitted source interest) forwarder.now =
      some data) :
    (¬ forwarder.Barred source data.name →
      (forwarder.receiveInterest source interest).outbox.sent =
        forwarder.outbox.sent ++ [(source, .data { data with incomingFace := none })]) ∧
    (forwarder.Barred source data.name →
      (forwarder.receiveInterest source interest).outbox = forwarder.outbox ∧
        (forwarder.receiveInterest source interest).counters.scopeViolations =
          forwarder.counters.scopeViolations + 1) ∧
    Settles (forwarder.pit.insert interest.name).1 data.freshness forwarder
      (forwarder.receiveInterest source interest) := by
  obtain ⟨reopened, isReopened⟩ : ∃ reopened, reopened = (forwarder.received.reopen
    interest.name).count fun counters => { counters with cacheHits := counters.cacheHits + 1 } :=
    ⟨_, rfl⟩
  have matched : Matched forwarder.received.pit forwarder.received.timers := sound.matched
  have disarmed : reopened.pit.get? (forwarder.pit.insert interest.name).1 =
      some (forwarder.entryFor interest.name).disarmed := by
    rw [isReopened]
    exact get?_reopen matched interest.name
  have change : Local (forwarder.pit.insert interest.name).1 forwarder.received reopened := by
    rw [isReopened]
    exact (local_reopen matched interest.name).trans (local_count _ _)
  obtain ⟨settled, answers, faces, outbox, counters⟩ := reopened.answerFromCache_eq
    (forwarder.pit.insert interest.name).1 source (forwarder.admitted source interest) data
  have sameFaces : settled.faces = forwarder.faces := faces.trans change.faces
  have sameOutbox : settled.outbox = forwarder.outbox := by
    rw [outbox, isReopened]
    exact forwarder.received.outbox_reopen interest.name
  have scope : settled.counters.scopeViolations = forwarder.counters.scopeViolations := by
    obtain ⟨_, _, frame⟩ := forwarder.received.reopen_frame interest.name
    rw [counters, isReopened, frame]
    rfl
  have reachable : settled.isReachable source = true := by
    rw [Forwarder.isReachable, sameFaces]
    exact sound.isReachable (judge_letIn (Or.inr judged)).2
  have barred : settled.Barred source data.name ↔ forwarder.Barred source data.name := by
    rw [Barred, Barred, sameFaces]
  obtain ⟨goes, stays⟩ := @sendData_cases settled source
    { data with incomingFace := some FaceId.contentStore } reachable
  have hit := receiveInterest_hit sound.matched judged idle found
  rw [← isReopened] at hit
  refine ⟨fun free => ?_, fun shut => ?_, ?_⟩
  · rw [hit, answers, goes (mt barred.mp free), sameOutbox]
  · obtain ⟨counted, same, more⟩ := stays (barred.mpr shut)
    rw [hit, answers, same, ← scope]
    exact ⟨sameOutbox, more⟩
  · obtain ⟨lingers⟩ := @settles_answerFromCache reopened _ _ source
      (forwarder.admitted source interest) data disarmed rfl
    rw [hit]
    rw [change.now, change.settings] at lingers
    exact ⟨lingers⟩

variable {settings : Settings} {capacity : Nat} {counters : Counters} {nonces : NonceSource}

/-- An Interest that the cache has Data for is served from it, and its entry is settled. -/
theorem cache_hit_serves
    (made : withParts settings (.empty capacity) counters nonces = .ok start)
    (history : List Action) (face : FaceId) (interest : Interest)
    (hit : (start.run history).counters.cacheHits <
      ((start.run history).receiveInterest face interest).counters.cacheHits) :
    ∃ data, Served start history face interest data (start.run history)
      ((start.run history).receiveInterest face interest) := by
  have sound : Sound (start.run history) := (sound_start made).run history
  obtain ⟨judged, idle, data, found⟩ := hit_of_cacheHits sound (Nat.ne_of_gt hit)
  have empty : start.contentStore.cached = ∅ := by
    obtain ⟨_, _, rfl⟩ := eq_of_withParts made
    rfl
  obtain ⟨under, moment, last, recent⟩ := cached_of_find? (sound_start made) empty found
  obtain ⟨sent, barred, settles⟩ := sound.served judged idle found
  refine ⟨data, under, ⟨moment, last, recent⟩, sent, fun shut => ⟨?_, barred shut⟩, _, ?_, settles⟩
  · have letIn := (accepts_of_judge (Or.inr judged)).2
    refine root_of_barred under shut.2 ?_
    exact Bool.eq_false_iff.mpr fun inside => letIn ⟨shut.1, inside⟩
  · obtain ⟨entry, _, here, _⟩ := settles.lingers
    have atName := (sound.act (.receiveInterest face interest)).matched.filed.find?_of_get? here
    rwa [sound.matched.filed.insert_name] at atName

/-- A local face has published Data that stays fresh for a second, and half of it has
passed. -/
def hostServes : List Action :=
  [.addFace { isLocal := true }, .addFace { isLocal := false },
    .receiveData ⟨256⟩ { name := ⟨[[97], [98]]⟩, freshness := some (Duration.ofMillis 1000), content := [1] },
    .passTime (Duration.ofMillis 500)]

theorem cache_hit_serves_fresh_data :
    (usual.run hostServes).counters.cacheHits < ((usual.run hostServes).receiveInterest ⟨257⟩
        { name := ⟨[[97]]⟩, nonce := 5, mustBeFresh := true }).counters.cacheHits ∧
      ∃ data, Served usual hostServes ⟨257⟩ { name := ⟨[[97]]⟩, nonce := 5, mustBeFresh := true } data
        (usual.run hostServes) ((usual.run hostServes).receiveInterest ⟨257⟩
          { name := ⟨[[97]]⟩, nonce := 5, mustBeFresh := true }) := by
  have hit : (usual.run hostServes).counters.cacheHits < ((usual.run hostServes).receiveInterest ⟨257⟩
      { name := ⟨[[97]]⟩, nonce := 5, mustBeFresh := true }).counters.cacheHits := by
    rw [run_eq_evaluate]
    decide +kernel
  exact ⟨hit, cache_hit_serves ofSettings_usual hostServes _ _ hit⟩

/-- A hit of the cache can leave its requester without an answer: what was found stays
on the host. -/
theorem cache_hit_sends_nothing :
    ((usual.run hostPublishes).receiveInterest ⟨257⟩ { name := .root, nonce := 5 }).counters.cacheHits =
        (usual.run hostPublishes).counters.cacheHits + 1 ∧
      ((usual.run hostPublishes).receiveInterest ⟨257⟩ { name := .root, nonce := 5 }).outbox.sent =
        (usual.run hostPublishes).outbox.sent := by
  decide +kernel

end Forwarder

end NamedData
