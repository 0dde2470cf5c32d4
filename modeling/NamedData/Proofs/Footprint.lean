import NamedData.Proofs.Steps

namespace NamedData

open Forwarder

/-- Tables that agree on every handle but one agree on every name but its own. -/
theorem Pit.Filed.find?_eq {before after : Pit} (filed : before.Filed) (filed' : after.Filed)
    {id : PitId} (others : ∀ other, other ≠ id → after.get? other = before.get? other)
    {name : Name} (different : name ≠ id.name) : after.find? name = before.find? name := by
  refine Option.ext fun other => ?_
  rw [filed.indexed, filed'.indexed]
  refine and_congr_right fun named => ?_
  rw [others other fun mine => different (by rw [← named, mine])]

namespace Forwarder

variable {before after forwarder : Forwarder} {id : PitId} {face : FaceId} {interest : Interest}

/-- Nothing has changed but the pending Interests, the timers, the counters, the nonces
to come and what is sent. -/
def Confined (before after : Forwarder) : Prop :=
  ∃ pit timers counters nonces outbox,
    after = { before with pit, timers, counters, nonces, outbox }

theorem Confined.refl (forwarder : Forwarder) : Confined forwarder forwarder :=
  ⟨_, _, _, _, _, rfl⟩

theorem Confined.trans {middle : Forwarder} (first : Confined before middle)
    (second : Confined middle after) : Confined before after := by
  obtain ⟨_, _, _, _, _, rfl⟩ := first
  obtain ⟨_, _, _, _, _, rfl⟩ := second
  exact ⟨_, _, _, _, _, rfl⟩

theorem confined_setUnsatisfyTimer (id : PitId) : Confined forwarder (forwarder.setUnsatisfyTimer id) := by
  obtain ⟨_, _, same⟩ := forwarder.setUnsatisfyTimer_frame id
  exact ⟨_, _, _, _, _, same⟩

theorem confined_sendInterest (id : PitId) (face : FaceId) (hint : Option String)
    (newNonce : Bool) : Confined forwarder (forwarder.sendInterest id face hint newNonce) := by
  rcases forwarder.sendInterest_cases id face hint newNonce with
    ⟨change, same⟩ | ⟨_, record, _, _, _, _, _, same⟩
  · exact ⟨_, _, _, _, _, same⟩
  · exact ⟨_, _, _, _, _, same.trans (emitInterest_eq id face record.interest hint newNonce)⟩

theorem confined_reject (id : PitId) : Confined forwarder (forwarder.reject id) := by
  rcases forwarder.reject_cases id with ⟨change, same⟩ | ⟨_, change, _, _, same⟩
  · exact ⟨_, _, _, _, _, same⟩
  · obtain ⟨_, _, stopped⟩ := (forwarder.count change).cancelTimers_frame id
    obtain ⟨_, _, lingers⟩ := ((forwarder.count change).cancelTimers id).setStragglerTimer_frame id
      false none
    rw [same, lingers, stopped]
    exact ⟨_, _, _, _, _, rfl⟩

/-- A strategy works on the pending Interests only. -/
theorem confined_afterReceiveInterest (strategy : Strategy) (route : FibEntry) (id : PitId) :
    Confined forwarder (strategy.afterReceiveInterest forwarder route id) :=
  afterReceiveInterest_keeps (Confined forwarder)
    (fun _ hop confined _ => confined.trans (confined_sendInterest id hop.face hop.targetHint false))
    (fun _ confined _ => confined.trans (confined_reject id)) strategy route (.refl forwarder)

theorem confined_askOnward (id : PitId) (face : FaceId) (interest : Interest) :
    Confined forwarder (forwarder.askOnward id face interest) := by
  have recorded : Confined forwarder (forwarder.addInRecord id face interest) :=
    ⟨_, _, _, _, _, rfl⟩
  exact (recorded.trans (confined_setUnsatisfyTimer id)).trans (confined_afterReceiveInterest _ _ id)

theorem confined_answerFromCache (id : PitId) (face : FaceId) (interest : Interest) (data : Data) :
    Confined forwarder (forwarder.answerFromCache id face interest data) := by
  obtain ⟨_, _, lingers⟩ := ((forwarder.addInRecord id face interest).updateEntry id
    (·.clearInRecords)).setStragglerTimer_frame id true data.freshness
  unfold answerFromCache
  dsimp only [Strategy.beforeSatisfyInterest]
  rw [sendData_eq, lingers]
  exact ⟨_, _, _, _, _, rfl⟩

theorem confined_handleRequest (matched : Matched forwarder.pit forwarder.timers) (face : FaceId)
    (interest : Interest) : Confined forwarder (forwarder.handleRequest face interest) := by
  have reopened (counts : Counters → Counters) :
      Confined forwarder ((forwarder.reopen interest.name).count counts) := by
    obtain ⟨_, _, same⟩ := forwarder.reopen_frame interest.name
    rw [same]
    exact ⟨_, _, _, _, _, rfl⟩
  rcases handleRequest_cases matched face interest with ⟨misses, same⟩ | ⟨data, _, same⟩
  · rw [same]
    exact (reopened _).trans (confined_askOnward _ face interest)
  · rw [same]
    exact (reopened _).trans (confined_answerFromCache _ face interest data)

theorem confined_receiveInterest (matched : Matched forwarder.pit forwarder.timers) (face : FaceId)
    (interest : Interest) : Confined forwarder (forwarder.receiveInterest face interest) := by
  rcases forwarder.receiveInterest_cases face interest with ⟨change, same⟩ | ⟨kept, judged | judged⟩
  · exact ⟨_, _, _, _, _, same⟩
  · rw [receiveInterest_duplicate judged, joinDuplicate_eq]
    exact Confined.trans ⟨_, _, _, _, _, rfl⟩ (confined_setUnsatisfyTimer _)
  · rw [receiveInterest_request judged]
    exact Confined.trans ⟨_, _, _, _, _, rfl⟩ (@confined_handleRequest forwarder.received matched face kept)

/-- All that stays as it was when an Interest of a name comes in: the tables, the clock,
and the entries of other names with their timers. -/
structure Footprint (name : Name) (before after : Forwarder) : Prop where
  settings : after.settings = before.settings
  faces : after.faces = before.faces
  fib : after.fib = before.fib
  strategies : after.strategies = before.strategies
  contentStore : after.contentStore = before.contentStore
  deadNonces : after.deadNonces = before.deadNonces
  now : after.now = before.now
  names : ∀ other : Name, other ≠ name → after.pit.find? other = before.pit.find? other
  entries : ∀ id : PitId, id.name ≠ name → after.pit.get? id = before.pit.get? id
  timers : ∀ (timer : TimerId) (event : TimerEvent), event.entry.name ≠ name →
    (after.timers.running[timer]? = some event ↔ before.timers.running[timer]? = some event)

theorem Footprint.of_confined {name : Name} (confined : Confined before after)
    (now : after.now = before.now)
    (names : ∀ other : Name, other ≠ name → after.pit.find? other = before.pit.find? other)
    (entries : ∀ id : PitId, id.name ≠ name → after.pit.get? id = before.pit.get? id)
    (timers : ∀ (timer : TimerId) (event : TimerEvent), event.entry.name ≠ name →
      (after.timers.running[timer]? = some event ↔ before.timers.running[timer]? = some event)) :
    Footprint name before after := by
  obtain ⟨_, _, _, _, _, rfl⟩ := confined
  exact ⟨rfl, rfl, rfl, rfl, rfl, rfl, now, names, entries, timers⟩

theorem Sound.footprint (sound : Sound forwarder) (face : FaceId) (interest : Interest) :
    Footprint interest.name forwarder (forwarder.receiveInterest face interest) := by
  have confined := confined_receiveInterest sound.matched face interest
  have filed := sound.matched.filed
  rcases forwarder.receiveInterest_cases face interest with ⟨change, same⟩ | ⟨kept, judged⟩
  · refine .of_confined confined ?_ (fun _ _ => ?_) (fun _ _ => ?_) fun _ _ _ => ?_ <;> rw [same] <;> rfl
  · obtain ⟨records, upkept⟩ :=
      upkept_receiveInterest sound.matched (sound.entryFor interest.name) judged
    have named := filed.insert_name interest.name
    refine .of_confined confined upkept.change.now ?_ ?_ ?_
    · intro other different
      rw [← named] at different
      exact filed.find?_eq upkept.matched.filed upkept.change.entries different
    · intro id different
      rw [← named] at different
      exact upkept.change.entries id fun mine => different (by rw [mine])
    · intro timer event different
      rw [← named] at different
      exact upkept.change.timers timer event fun mine => different (by rw [mine])

/-- An arriving Interest is dropped: its face is not there, it is meant for another
receiver, it may travel no further, or it asks from outside for what stays on the host. -/
def Drops (forwarder : Forwarder) (face : FaceId) (interest : Interest) : Prop :=
  forwarder.faces.contains face = false ∨ forwarder.isForeign face interest = true ∨
    interest.hopLimit = some 0 ∨ forwarder.Barred face interest.name

/-- An arriving Interest has looped: its nonce is dead, or was received from its face or
sent to it before. -/
def Loops (forwarder : Forwarder) (face : FaceId) (interest : Interest) : Prop :=
  forwarder.deadNonces.contains interest.name interest.nonce = true ∨
    (forwarder.sighting face interest).isLoop = true

instance : Decidable (forwarder.Drops face interest) :=
  inferInstanceAs (Decidable (_ ∨ _ ∨ _ ∨ _ ∧ _))

instance : Decidable (forwarder.Loops face interest) := inferInstanceAs (Decidable (_ ∨ _))

theorem letIn_of_judge {kept : Interest} (judged : forwarder.judge face interest = .duplicate kept ∨
    forwarder.judge face interest = .request kept) :
    ¬ forwarder.Drops face interest ∧ ¬ forwarder.Loops face interest := by
  unfold judge at judged
  constructor
  · rintro (absent | foreign | exhausted | ⟨outside, under⟩) <;> grind
  · rintro (dead | looped) <;> grind

theorem judge_of_duplicate (letIn : ¬ forwarder.Drops face interest)
    (fresh : ¬ forwarder.Loops face interest)
    (known : (forwarder.sighting face interest).isDuplicate = true) :
    forwarder.judge face interest = .duplicate (forwarder.admitted face interest) := by
  simp only [Drops, Barred, Loops, not_or, Bool.not_eq_true, Bool.not_eq_false] at letIn fresh
  unfold judge
  grind

/-- An Interest that is dropped or has looped leaves its mark on the counters only. -/
theorem receiveInterest_of_unwanted
    (unwanted : forwarder.Drops face interest ∨ forwarder.Loops face interest) :
    ∃ counters, forwarder.receiveInterest face interest = { forwarder with counters } := by
  rcases forwarder.receiveInterest_cases face interest with ⟨change, same⟩ | ⟨kept, judged⟩
  · exact ⟨_, same⟩
  · obtain ⟨letIn, fresh⟩ := letIn_of_judge judged
    exact absurd unwanted (not_or.mpr ⟨letIn, fresh⟩)

/-- A known nonce is told from one seen in a live entry of the name. -/
theorem entry_of_duplicate (filed : forwarder.pit.Filed)
    (known : (forwarder.sighting face interest).isDuplicate = true) :
    ∃ entry, forwarder.pit.find? interest.name = some entry.id ∧
      forwarder.pit.get? entry.id = some entry := by
  cases atName : forwarder.pit.find? interest.name with
  | some id =>
    obtain ⟨entry, found⟩ := filed.exists_get? atName
    exact ⟨entry, by rw [filed.own found], by rw [filed.own found]; exact found⟩
  | none =>
    have unseen : forwarder.sighting face interest = ⟨false, false, false, false⟩ := by
      rw [sighting, atName]
      rfl
    rw [unseen] at known
    cases known

/-- A downstream gets its record in an entry, or its record is renewed, and the timer
that ends the wait is set anew, for when the last downstream gives up. -/
structure Enters (entry : PitEntry) (record : InRecord) (fresh : Bool)
    (before after : Forwarder) : Prop where
  frame : ∃ timers pit counters, after = { before with timers, pit, counters }
  created : after.pit.created = before.pit.created
  others : ∀ other : InRecord, other.face ≠ record.face →
    (other ∈ PitEntry.putRecord InRecord.face record entry.inRecords ↔ other ∈ entry.inRecords)
  entry : ∃ timer last,
    after.pit.get? entry.id = some { entry with
      inRecords := PitEntry.putRecord InRecord.face record entry.inRecords
      mustBeFresh := entry.mustBeFresh || fresh
      unsatisfyTimer := some timer } ∧
    ((PitEntry.putRecord InRecord.face record entry.inRecords).map (·.expiry)).max? = some last ∧
    timer.deadline = max last before.now ∧
    ∀ other : TimerId, after.timers.running[other]? =
      if other = timer then some (.unsatisfy entry.id)
      else if entry.unsatisfyTimer = some other then none
      else before.timers.running[other]?

theorem enters_addInRecord {entry : PitEntry} (found : forwarder.pit.get? entry.id = some entry)
    (face : FaceId) (interest : Interest) :
    Enters entry (forwarder.newInRecord face interest) interest.mustBeFresh forwarder
      ((forwarder.addInRecord entry.id face interest).setUnsatisfyTimer entry.id) := by
  obtain ⟨noted, isNoted⟩ : ∃ noted, noted = forwarder.addInRecord entry.id face interest := ⟨_, rfl⟩
  obtain ⟨joined, isJoined⟩ : ∃ joined, joined =
    entry.addInRecord face interest forwarder.now (forwarder.lifetimeOf interest) := ⟨_, rfl⟩
  have added : noted.pit.get? entry.id = some joined := by
    rw [isNoted, addInRecord, get?_updateEntry, found, isJoined]
    rfl
  have waits : forwarder.newInRecord face interest ∈ joined.inRecords := by
    rw [isJoined]
    exact PitEntry.self_mem_putRecord _ _ _
  obtain ⟨last, latest⟩ := PitEntry.lastInRecordExpiry?_of_mem waits
  have owner : noted.pit.get? (TimerEvent.unsatisfy entry.id).entry = some joined := added
  rw [← isNoted, setUnsatisfyTimer_eq added latest]
  refine ⟨?_, ?_, fun other different => ?_, noted.nextTimer last, last, ?_, ?_, ?_, fun other => ?_⟩
  · rw [rearm_eq, isNoted]
    exact ⟨_, _, _, rfl⟩
  · rw [rearm_eq, isNoted]
    rfl
  · refine ⟨fun member => (PitEntry.mem_putRecord member).resolve_left fun new => ?_,
      fun member => PitEntry.mem_putRecord_of_ne member different⟩
    exact different (by rw [new])
  · refine (get?_rearm last owner).trans ?_
    rw [isJoined]
    rfl
  · rw [isJoined] at latest
    exact latest
  · rw [isNoted]
    rfl
  · rw [running_rearm, isJoined, isNoted]
    rfl

theorem joinDuplicate_of_entry {entry : PitEntry}
    (atName : forwarder.pit.find? interest.name = some entry.id) :
    ∃ counters, forwarder.joinDuplicate face interest =
      (addInRecord { forwarder with counters } entry.id face interest).setUnsatisfyTimer entry.id := by
  refine ⟨{ forwarder.counters with
    duplicateNonces := forwarder.counters.duplicateNonces + 1 }, ?_⟩
  simp only [joinDuplicate, Pit.insert_of_find? atName]
  rfl

/-- A known nonce makes its sender wait with the others in the entry that is there. -/
theorem enters_receiveInterest (filed : forwarder.pit.Filed)
    (letIn : ¬ forwarder.Drops face interest) (fresh : ¬ forwarder.Loops face interest)
    (known : (forwarder.sighting face interest).isDuplicate = true) :
    ∃ entry, forwarder.pit.find? interest.name = some entry.id ∧
      forwarder.pit.get? entry.id = some entry ∧ Enters entry (forwarder.newInRecord face (forwarder.admitted face interest))
        interest.mustBeFresh forwarder (forwarder.receiveInterest face interest) := by
  obtain ⟨entry, atName, found⟩ := entry_of_duplicate filed known
  obtain ⟨counters, joins⟩ := @joinDuplicate_of_entry forwarder.received face
    (forwarder.admitted face interest) entry atName
  have enters := @enters_addInRecord { forwarder.received with counters } entry found face
    (forwarder.admitted face interest)
  refine ⟨entry, atName, found, ?_⟩
  rw [receiveInterest_duplicate (judge_of_duplicate letIn fresh known), joins]
  obtain ⟨timers, pit, counters, frame⟩ := enters.frame
  exact ⟨⟨timers, pit, counters, frame⟩, enters.created, enters.others, enters.entry⟩

variable {settings : Settings} {contentStore : ContentStore} {counters : Counters}
  {nonces : NonceSource} {start : Forwarder}

/-- What comes of an Interest stays with the entry of its name. One that is dropped or
has looped leaves its mark on the counters only. One with a known nonce adds a
downstream to the entry that is there, and nothing is sent. -/
theorem interest_stays_with_its_entry
    (made : withParts settings contentStore counters nonces = .ok start)
    (reach : Reach start forwarder) (face : FaceId) (interest : Interest) :
    Footprint interest.name forwarder (forwarder.receiveInterest face interest) ∧
      (forwarder.Drops face interest ∨ forwarder.Loops face interest →
        ∃ counters, forwarder.receiveInterest face interest = { forwarder with counters }) ∧
      (¬ forwarder.Drops face interest → ¬ forwarder.Loops face interest →
        (forwarder.sighting face interest).isDuplicate = true →
        ∃ entry, forwarder.pit.find? interest.name = some entry.id ∧
          forwarder.pit.get? entry.id = some entry ∧ Enters entry (forwarder.newInRecord face (forwarder.admitted face interest))
            interest.mustBeFresh forwarder (forwarder.receiveInterest face interest)) := by
  have sound := reach.sound made
  exact ⟨sound.footprint face interest, receiveInterest_of_unwanted,
    enters_receiveInterest sound.matched.filed⟩

/-- One Interest waits, and a third face is there to ask the same. -/
def oneMayJoin : List Action := oneWaits ++ [.addFace { isLocal := false }]

theorem interest_stays_with_its_entry_for_two :
    (∃ counters, (usual.run oneMayJoin).receiveInterest ⟨256⟩ { name := ⟨[[97]]⟩, nonce := 5 } =
        { usual.run oneMayJoin with counters }) ∧
      ∃ entry, (usual.run oneMayJoin).pit.find? ⟨[[97]]⟩ = some entry.id ∧
        (usual.run oneMayJoin).pit.get? entry.id = some entry ∧ Enters entry ((usual.run oneMayJoin).newInRecord ⟨258⟩
            ((usual.run oneMayJoin).admitted ⟨258⟩ { name := ⟨[[97]]⟩, nonce := 5 })) false
          (usual.run oneMayJoin)
          ((usual.run oneMayJoin).receiveInterest ⟨258⟩ { name := ⟨[[97]]⟩, nonce := 5 }) := by
  have reach : Reach usual (usual.run oneMayJoin) := Reach.start.run oneMayJoin
  obtain ⟨_, unwanted, _⟩ := interest_stays_with_its_entry ofSettings_usual reach ⟨256⟩
    { name := ⟨[[97]]⟩, nonce := 5 }
  obtain ⟨_, _, joins⟩ := interest_stays_with_its_entry ofSettings_usual reach ⟨258⟩
    { name := ⟨[[97]]⟩, nonce := 5 }
  exact ⟨unwanted (Or.inr (by decide)), joins (by decide) (by decide) (by decide)⟩

end Forwarder

end NamedData
