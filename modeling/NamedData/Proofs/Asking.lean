import NamedData.Proofs.EntryChanges

namespace NamedData

namespace Forwarder

variable {forwarder : Forwarder} {id : PitId}

/-- The records of the faces that were asked for an entry. -/
def outRecordsOf (forwarder : Forwarder) (id : PitId) : List OutRecord :=
  ((forwarder.pit.get? id).map (·.outRecords)).getD []

/-- A face was asked for an entry, and the last nonce that it was sent is this
one. -/
def Asked (forwarder : Forwarder) (id : PitId) (face : FaceId) (nonce : Nonce) : Prop :=
  ∃ record ∈ forwarder.outRecordsOf id, record.face = face ∧ record.nonce = nonce

theorem outRecordsOf_of_get? {entry : PitEntry} (found : forwarder.pit.get? id = some entry) :
    forwarder.outRecordsOf id = entry.outRecords := by
  rw [outRecordsOf, found]
  rfl

theorem Asked.live {face : FaceId} {nonce : Nonce} (asked : forwarder.Asked id face nonce) :
    ∃ entry, forwarder.pit.get? id = some entry ∧
      ∃ record ∈ entry.outRecords, record.face = face ∧ record.nonce = nonce := by
  obtain ⟨record, member, same⟩ := asked
  cases found : forwarder.pit.get? id with
  | none =>
    rw [outRecordsOf, found] at member
    cases member
  | some entry =>
    rw [outRecordsOf_of_get? found] at member
    exact ⟨entry, rfl, record, member, same⟩

theorem outRecordsOf_updateEntry {change : PitEntry → PitEntry}
    (same : ∀ entry, (change entry).outRecords = entry.outRecords) :
    (forwarder.updateEntry id change).outRecordsOf id = forwarder.outRecordsOf id := by
  rw [outRecordsOf, get?_updateEntry, outRecordsOf]
  cases forwarder.pit.get? id with
  | none => rfl
  | some entry => exact same entry

theorem outRecordsOf_rearm {entry : PitEntry} {deadline : Instant} {event : TimerEvent}
    (mine : event.entry = id) (found : forwarder.pit.get? id = some entry) :
    (forwarder.rearm entry deadline event).outRecordsOf id = forwarder.outRecordsOf id := by
  subst mine
  rw [outRecordsOf_of_get? (get?_rearm deadline found), outRecordsOf_of_get? found]
  cases event <;> rfl

theorem outRecordsOf_setUnsatisfyTimer :
    (forwarder.setUnsatisfyTimer id).outRecordsOf id = forwarder.outRecordsOf id := by
  cases found : forwarder.pit.get? id with
  | none => simp only [setUnsatisfyTimer, found]
  | some entry =>
    cases last : entry.lastInRecordExpiry? with
    | none => simp only [setUnsatisfyTimer, found, last]
    | some expiry =>
      rw [setUnsatisfyTimer_eq found last]
      exact outRecordsOf_rearm rfl found

theorem outRecordsOf_setStragglerTimer (satisfied : Bool) (freshness : Option Duration) :
    (forwarder.setStragglerTimer id satisfied freshness).outRecordsOf id =
      forwarder.outRecordsOf id := by
  cases found : forwarder.pit.get? id with
  | none => simp only [setStragglerTimer, found]
  | some entry =>
    rw [setStragglerTimer_eq satisfied freshness found]
    exact outRecordsOf_rearm rfl found

theorem outRecordsOf_cancelTimers :
    (forwarder.cancelTimers id).outRecordsOf id = forwarder.outRecordsOf id := by
  rw [outRecordsOf, get?_cancelTimers, outRecordsOf]
  cases forwarder.pit.get? id <;> rfl

theorem outRecordsOf_reject : (forwarder.reject id).outRecordsOf id = forwarder.outRecordsOf id := by
  rcases forwarder.reject_cases id with ⟨change, same⟩ | ⟨_, change, _, _, same⟩
  · rw [same]
    rfl
  · rw [same, outRecordsOf_setStragglerTimer, outRecordsOf_cancelTimers]
    rfl

theorem outRecordsOf_insert (filed : forwarder.pit.Filed) (name : Name) :
    { forwarder with pit := (forwarder.pit.insert name).2 }.outRecordsOf (forwarder.pit.insert name).1 =
      forwarder.outRecordsOf (forwarder.pit.insert name).1 := by
  rw [outRecordsOf_of_get? (filed.get?_insert_self name), outRecordsOf]
  cases forwarder.pit.get? (forwarder.pit.insert name).1 <;> rfl

theorem outbox_reject : (forwarder.reject id).outbox = forwarder.outbox := by
  rcases forwarder.reject_cases id with ⟨change, same⟩ | ⟨_, change, _, _, same⟩
  · rw [same]
    rfl
  · rw [same, outbox_setStragglerTimer, outbox_cancelTimers]
    rfl

theorem outbox_setUnsatisfyTimer : (forwarder.setUnsatisfyTimer id).outbox = forwarder.outbox := by
  obtain ⟨_, _, same⟩ := forwarder.setUnsatisfyTimer_frame id
  rw [same]

theorem speaker?_mem {face : FaceId} {records : List InRecord} {record : InRecord}
    (spoken : speaker? face records = some record) : record ∈ records := by
  induction records with
  | nil => cases spoken
  | cons first rest ih =>
    rw [speaker?] at spoken
    split at spoken
    · cases spoken
      exact List.mem_cons_self
    · rename_i other later
      split at spoken
      · cases spoken
        exact List.mem_cons_self
      · cases spoken
        exact List.mem_cons_of_mem first (ih later)

/-- A send does nothing to the entry and hands out nothing, or one Interest goes
out and its nonce is noted with its face. -/
theorem sent_sendInterest (id : PitId) (face : FaceId) (hint : Option String) (newNonce : Bool) :
    ((forwarder.sendInterest id face hint newNonce).outbox = forwarder.outbox ∧
        (forwarder.sendInterest id face hint newNonce).pit = forwarder.pit) ∨
      ∃ entry record request lifetime, forwarder.pit.get? id = some entry ∧
        speaker? face entry.inRecords = some record ∧ request.name = record.interest.name ∧
        (newNonce = false → request.nonce = record.interest.nonce) ∧
        (forwarder.sendInterest id face hint newNonce).outbox.sent =
          forwarder.outbox.sent ++ [(face, .interest request)] ∧
        (forwarder.sendInterest id face hint newNonce).pit.get? id =
          some (entry.addOutRecord face request.nonce forwarder.now lifetime) := by
  rcases forwarder.sendInterest_cases id face hint newNonce with
    ⟨change, same⟩ | ⟨entry, record, found, _, _, spoken, _, sent⟩
  · rw [same]
    exact Or.inl ⟨rfl, rfl⟩
  · refine Or.inr ⟨entry, record, { forwarder.outgoing record.interest newNonce with
      incomingFace := none, targetHint := hint }, forwarder.lifetimeOf record.interest, found, spoken,
      name_outgoing _ _, ?_, ?_, ?_⟩
    · intro old
      rw [old]
      rfl
    · rw [sent, emitInterest_eq]
      rfl
    · rw [sent]
      exact get?_emitInterest found face record.interest hint newNonce

/-- One more face is asked for an entry, and the others keep their records. -/
theorem asked_addOutRecord {after : Forwarder} {entry : PitEntry} {face : FaceId} {nonce : Nonce}
    {now : Instant} {lifetime : Duration} (found : forwarder.pit.get? id = some entry)
    (added : after.pit.get? id = some (entry.addOutRecord face nonce now lifetime)) :
    after.Asked id face nonce ∧
      ∀ {other : FaceId} {old : Nonce}, forwarder.Asked id other old →
        after.Asked id other old ∨ other = face ∧ nonce ≠ old := by
  have records := outRecordsOf_of_get? added
  have new : after.Asked id face nonce := by
    refine ⟨⟨face, nonce, now, now + lifetime⟩, ?_, rfl, rfl⟩
    rw [records]
    exact PitEntry.self_mem_putRecord OutRecord.face _ _
  refine ⟨new, ?_⟩
  intro other old asked
  obtain ⟨before, here, record, member, sameFace, sameNonce⟩ := asked.live
  rw [found] at here
  cases here
  by_cases mine : other = face
  · by_cases again : nonce = old
    · rw [mine, ← again]
      exact Or.inl new
    · exact Or.inr ⟨mine, again⟩
  · refine Or.inl ⟨record, ?_, sameFace, sameNonce⟩
    rw [records]
    exact PitEntry.mem_putRecord_of_ne member (by rw [sameFace]; exact mine)

/-- What was handed out for an entry. The Interests are for its name, and each face
that got one is noted with the nonce. A face that was asked before is still noted
with the old nonce unless it got another. -/
structure Emitted (id : PitId) (before after : Forwarder) (packets : List (FaceId × Packet)) :
    Prop where
  sent : after.outbox.sent = before.outbox.sent ++ packets
  noted : ∀ {face : FaceId} {request : Interest}, (face, .interest request) ∈ packets →
    request.name = id.name ∧ after.Asked id face request.nonce
  kept : ∀ {face : FaceId} {nonce : Nonce}, before.Asked id face nonce →
    after.Asked id face nonce ∨
      ∃ request, (face, .interest request) ∈ packets ∧ request.nonce ≠ nonce

theorem Emitted.of_same {before after : Forwarder} (outbox : after.outbox = before.outbox)
    (records : after.outRecordsOf id = before.outRecordsOf id) : Emitted id before after [] where
  sent := by rw [outbox, List.append_nil]
  noted impossible := by cases impossible
  kept asked := by
    rw [Asked, records]
    exact Or.inl asked

/-- What happens before or after, while nothing is handed out and no face is asked,
does not matter. -/
theorem Emitted.congr {first before after last : Forwarder} {packets : List (FaceId × Packet)}
    (emitted : Emitted id before after packets) (outbox : before.outbox = first.outbox)
    (records : before.outRecordsOf id = first.outRecordsOf id) (outbox' : last.outbox = after.outbox)
    (records' : last.outRecordsOf id = after.outRecordsOf id) : Emitted id first last packets where
  sent := by rw [outbox', emitted.sent, outbox]
  noted member := by
    rw [Asked, records']
    exact emitted.noted member
  kept asked := by
    rw [Asked, ← records] at asked
    rw [Asked, records']
    exact emitted.kept asked

/-- One more Interest goes out. It must not take the place of one of those that
went out with it. -/
theorem Emitted.ask {before after last : Forwarder} {packets : List (FaceId × Packet)}
    (emitted : Emitted id before after packets) {entry : PitEntry} {face : FaceId}
    {request : Interest} {now : Instant} {lifetime : Duration}
    (found : after.pit.get? id = some entry)
    (added : last.pit.get? id = some (entry.addOutRecord face request.nonce now lifetime))
    (sent : last.outbox.sent = after.outbox.sent ++ [(face, .interest request)])
    (named : request.name = id.name)
    (agree : ∀ other, (face, .interest other) ∈ packets → other.nonce = request.nonce) :
    Emitted id before last (packets ++ [(face, .interest request)]) := by
  obtain ⟨new, old⟩ := asked_addOutRecord found added
  refine ⟨?_, ?_, ?_⟩
  · rw [sent, emitted.sent, List.append_assoc]
  · intro face' request' member
    rcases List.mem_append.mp member with before | last
    · obtain ⟨named', asked⟩ := emitted.noted before
      refine ⟨named', ?_⟩
      rcases old asked with still | ⟨mine, other⟩
      · exact still
      · rw [mine] at before
        exact absurd (agree request' before).symm other
    · cases List.mem_singleton.mp last
      exact ⟨named, new⟩
  · intro other nonce asked
    rcases emitted.kept asked with still | ⟨request', member, different⟩
    · rcases old still with still | ⟨mine, different⟩
      · exact Or.inl still
      · refine Or.inr ⟨request, ?_, different⟩
        rw [mine]
        exact List.mem_append_right _ (List.mem_singleton.mpr rfl)
    · exact Or.inr ⟨request', List.mem_append_left _ member, different⟩

theorem emitted_sendInterest (sound : Sound forwarder) (id : PitId) (face : FaceId)
    (hint : Option String) (newNonce : Bool) :
    ∃ packets, Emitted id forwarder (forwarder.sendInterest id face hint newNonce) packets := by
  rcases forwarder.sent_sendInterest id face hint newNonce with
    ⟨outbox, pit⟩ | ⟨entry, record, request, lifetime, found, spoken, named, _, sent, added⟩
  · refine ⟨[], .of_same outbox ?_⟩
    rw [outRecordsOf, pit, outRecordsOf]
  · have same : request.name = id.name := by
      rw [named, (sound.recorded found).named (speaker?_mem spoken),
        sound.matched.filed.named found]
    refine ⟨_, (Emitted.of_same rfl rfl).ask found added sent same ?_⟩
    intro other impossible
    cases impossible

/-- What a strategy has done so far: the downstreams of the entry are the same,
and each face got the Interest of the one that speaks to it. -/
structure Flooded (id : PitId) (records : List InRecord) (before after : Forwarder) : Prop where
  waiting : ∃ entry, after.pit.get? id = some entry ∧ entry.inRecords = records
  emitted : ∃ packets, Emitted id before after packets ∧
    ∀ face request, (face, .interest request) ∈ packets →
      ∃ record, speaker? face records = some record ∧ record.interest.nonce = request.nonce

variable {records : List InRecord} {before : Forwarder}

theorem Flooded.sendInterest (flooded : Flooded id records before forwarder)
    (named : ∀ record ∈ records, record.interest.name = id.name) (face : FaceId)
    (hint : Option String) :
    Flooded id records before (forwarder.sendInterest id face hint false) := by
  obtain ⟨entry, found, same⟩ := flooded.waiting
  obtain ⟨packets, emitted, spoken⟩ := flooded.emitted
  rcases forwarder.sent_sendInterest id face hint false with
    ⟨outbox, pit⟩ | ⟨owner, record, request, lifetime, here, speaks, sameName, sameNonce, sent, added⟩
  · refine ⟨⟨entry, by rw [pit, found], same⟩, packets, emitted.congr rfl rfl outbox ?_, spoken⟩
    rw [outRecordsOf, pit, outRecordsOf]
  · rw [found] at here
    cases here
    rw [same] at speaks
    refine ⟨⟨_, added, same⟩, _, emitted.ask found added sent ?_ ?_, ?_⟩
    · rw [sameName, named record (speaker?_mem speaks)]
    · -- A face that is asked twice hears the same downstream, so the same nonce.
      intro other member
      obtain ⟨twin, speaks', nonce⟩ := spoken face other member
      rw [speaks] at speaks'
      cases speaks'
      rw [← nonce, sameNonce rfl]
    · intro other request' member
      rcases List.mem_append.mp member with before | last
      · exact spoken other request' before
      · cases List.mem_singleton.mp last
        exact ⟨record, speaks, (sameNonce rfl).symm⟩

theorem Flooded.reject (flooded : Flooded id records before forwarder) :
    Flooded id records before (forwarder.reject id) := by
  obtain ⟨entry, found, same⟩ := flooded.waiting
  obtain ⟨packets, emitted, spoken⟩ := flooded.emitted
  refine ⟨?_, packets, emitted.congr rfl rfl outbox_reject outRecordsOf_reject, spoken⟩
  rcases forwarder.reject_cases id with ⟨change, rejected⟩ | ⟨_, change, _, _, rejected⟩
  · rw [rejected]
    exact ⟨entry, found, same⟩
  · have disarmed := (forwarder.count change).get?_cancelTimers id
    rw [show (forwarder.count change).pit.get? id = some entry from found] at disarmed
    rw [rejected, setStragglerTimer_eq false none disarmed]
    exact ⟨_, get?_rearm _ disarmed, same⟩

theorem outbox_addInRecord (face : FaceId) (interest : Interest) :
    ((forwarder.addInRecord id face interest).setUnsatisfyTimer id).outbox = forwarder.outbox := by
  rw [outbox_setUnsatisfyTimer]
  rfl

theorem outRecordsOf_addInRecord (face : FaceId) (interest : Interest) :
    ((forwarder.addInRecord id face interest).setUnsatisfyTimer id).outRecordsOf id =
      forwarder.outRecordsOf id := by
  rw [outRecordsOf_setUnsatisfyTimer]
  exact outRecordsOf_updateEntry fun _ => rfl

/-- A request that is sent on is noted with every face that it goes to. -/
theorem emitted_askOnward {face : FaceId} {interest : Interest}
    (upkept : Upkept id records before
      ((forwarder.addInRecord id face interest).setUnsatisfyTimer id)) :
    ∃ packets, Emitted id forwarder (forwarder.askOnward id face interest) packets := by
  obtain ⟨waiting, isWaiting⟩ : ∃ waiting, waiting =
    (forwarder.addInRecord id face interest).setUnsatisfyTimer id := ⟨_, rfl⟩
  rw [← isWaiting] at upkept
  obtain ⟨entry, found, same, _, recorded⟩ := upkept.entry
  have named : ∀ record ∈ records, record.interest.name = id.name := by
    intro record member
    rw [← same] at member
    rw [recorded.named member, upkept.matched.filed.named found]
  have start : Flooded id records waiting waiting := by
    refine ⟨⟨entry, found, same⟩, [], .of_same rfl rfl, ?_⟩
    intro face' request impossible
    cases impossible
  have flooded := afterReceiveInterest_keeps (Flooded id records waiting)
    (fun _ hop kept _ => kept.sendInterest named hop.face hop.targetHint)
    (fun _ kept _ => kept.reject) (waiting.strategies.effective interest.name)
    (waiting.fib.longestPrefixMatch interest.name) start
  obtain ⟨packets, emitted, _⟩ := flooded.emitted
  rw [isWaiting] at emitted
  exact ⟨packets, emitted.congr (outbox_addInRecord face interest)
    (outRecordsOf_addInRecord face interest) rfl rfl⟩

variable {face : FaceId} {interest : Interest}

theorem outbox_joinDuplicate :
    (forwarder.joinDuplicate face interest).outbox = forwarder.outbox := by
  rw [joinDuplicate_eq, outbox_addInRecord]
  rfl

theorem emitted_joinDuplicate (filed : forwarder.pit.Filed) :
    Emitted (forwarder.pit.insert interest.name).1 forwarder
      (forwarder.joinDuplicate face interest) [] := by
  refine .of_same outbox_joinDuplicate ?_
  rw [joinDuplicate_eq, outRecordsOf_addInRecord]
  exact outRecordsOf_insert filed interest.name

theorem outbox_reopen (name : Name) : (forwarder.reopen name).outbox = forwarder.outbox :=
  outbox_cancelTimers _ _

theorem outRecordsOf_reopen (filed : forwarder.pit.Filed) (name : Name) :
    (forwarder.reopen name).outRecordsOf (forwarder.pit.insert name).1 =
      forwarder.outRecordsOf (forwarder.pit.insert name).1 := by
  rw [reopen, outRecordsOf_cancelTimers, outRecordsOf_insert filed]

theorem emitted_sendData (id : PitId) (data : Data) (face : FaceId) :
    ∃ packets, Emitted id forwarder (forwarder.sendData data face) packets := by
  have same : (forwarder.sendData data face).outRecordsOf id = forwarder.outRecordsOf id := by
    rw [sendData_eq]
    rfl
  refine ⟨_, sent_sendData data face, ?_, ?_⟩
  · intro other request member
    split at member
    · cases List.mem_singleton.mp member
    · cases member
  · intro other nonce asked
    rw [Asked, same]
    exact Or.inl asked

theorem emitted_answerFromCache (data : Data) :
    ∃ packets, Emitted id forwarder (forwarder.answerFromCache id face interest data) packets := by
  obtain ⟨told, isTold⟩ : ∃ told, told = ((forwarder.addInRecord id face interest).updateEntry id
    (·.clearInRecords)).setStragglerTimer id true data.freshness := ⟨_, rfl⟩
  have outbox : told.outbox = forwarder.outbox := by
    rw [isTold, outbox_setStragglerTimer]
    rfl
  have added : (forwarder.addInRecord id face interest).outRecordsOf id =
      forwarder.outRecordsOf id :=
    outRecordsOf_updateEntry fun _ => rfl
  have cleared : ((forwarder.addInRecord id face interest).updateEntry id
      (·.clearInRecords)).outRecordsOf id = (forwarder.addInRecord id face interest).outRecordsOf id :=
    outRecordsOf_updateEntry fun _ => rfl
  have records : told.outRecordsOf id = forwarder.outRecordsOf id := by
    rw [isTold, outRecordsOf_setStragglerTimer, cleared, added]
  have answered : forwarder.answerFromCache id face interest data =
    told.sendData { data with incomingFace := some FaceId.contentStore } face := by rw [isTold]; rfl
  obtain ⟨packets, emitted⟩ := told.emitted_sendData id
    { data with incomingFace := some FaceId.contentStore } face
  rw [answered]
  exact ⟨packets, emitted.congr outbox records rfl rfl⟩

theorem emitted_handleRequest (matched : Matched forwarder.pit forwarder.timers)
    (recorded : (forwarder.entryFor interest.name).Recorded forwarder.faces)
    (present : forwarder.faces.contains face = true) :
    ∃ packets, Emitted (forwarder.pit.insert interest.name).1 forwarder
      (forwarder.handleRequest face interest) packets := by
  have outbox := forwarder.outbox_reopen interest.name
  have records := outRecordsOf_reopen matched.filed interest.name
  rcases handleRequest_cases matched face interest with ⟨misses, same⟩ | ⟨data, _, same⟩
  · obtain ⟨packets, emitted⟩ := emitted_askOnward (upkept_reopen matched recorded present _)
    rw [same]
    exact ⟨packets, emitted.congr outbox records rfl rfl⟩
  · obtain ⟨packets, emitted⟩ := @emitted_answerFromCache ((forwarder.reopen interest.name).count
      fun counters => { counters with cacheHits := counters.cacheHits + 1 })
        (forwarder.pit.insert interest.name).1 face interest data
    rw [same]
    exact ⟨packets, emitted.congr outbox records rfl rfl⟩

theorem emitted_receiveInterest (sound : Sound forwarder) (face : FaceId) (interest : Interest) :
    ∃ packets, Emitted (forwarder.pit.insert interest.name).1 forwarder
      (forwarder.receiveInterest face interest) packets := by
  rcases forwarder.receiveInterest_cases face interest with
    ⟨change, same⟩ | ⟨kept, judged | judged⟩
  · rw [same]
    exact ⟨[], .of_same rfl rfl⟩
  · rw [receiveInterest_duplicate judged, (judge_letIn (Or.inl judged)).1]
    have joined := @emitted_joinDuplicate forwarder.received face (forwarder.admitted face interest)
      sound.matched.filed
    exact ⟨[], joined.congr rfl rfl rfl rfl⟩
  · obtain ⟨admitted, present⟩ := judge_letIn (Or.inr judged)
    rw [receiveInterest_request judged, admitted]
    obtain ⟨packets, emitted⟩ := @emitted_handleRequest forwarder.received face
      (forwarder.admitted face interest) sound.matched (sound.entryFor interest.name) present
    exact ⟨packets, emitted.congr rfl rfl rfl rfl⟩

end Forwarder

end NamedData
