import NamedData.Proofs.Upkeep

namespace NamedData

namespace Forwarder

variable {forwarder : Forwarder}

/-- The entry of a name as an Interest finds it, a bare one when there is none. -/
def entryFor (forwarder : Forwarder) (name : Name) : PitEntry :=
  (forwarder.pit.get? (forwarder.pit.insert name).1).getD { id := (forwarder.pit.insert name).1, name }

theorem entryFor_of_get? {name : Name} {entry : PitEntry}
    (found : forwarder.pit.get? (forwarder.pit.insert name).1 = some entry) :
    forwarder.entryFor name = entry := by
  rw [entryFor, found]
  rfl

/-- Who waits in the entry that an Interest finds waits in one that was there. -/
theorem exists_of_mem_entryFor {name : Name} {record : InRecord}
    (member : record ∈ (forwarder.entryFor name).inRecords) :
    ∃ old, forwarder.pit.get? (forwarder.pit.insert name).1 = some old ∧ record ∈ old.inRecords := by
  cases found : forwarder.pit.get? (forwarder.pit.insert name).1 with
  | none =>
    rw [entryFor, found] at member
    cases member
  | some old =>
    rw [entryFor_of_get? found] at member
    exact ⟨old, rfl, member⟩

/-- The record of a downstream whose Interest has just been admitted. -/
def newInRecord (forwarder : Forwarder) (face : FaceId) (interest : Interest) : InRecord :=
  ⟨face, interest, forwarder.now, forwarder.now + forwarder.lifetimeOf interest⟩

theorem local_insert (name : Name) : Local (forwarder.pit.insert name).1 forwarder
    { forwarder with pit := (forwarder.pit.insert name).2 } :=
  ⟨⟨rfl, rfl, rfl, Pit.created_insert_le name, [], rfl⟩,
    fun _ different => Pit.get?_insert_of_ne different, fun _ _ _ => Iff.rfl⟩

theorem matched_insert (matched : Matched forwarder.pit forwarder.timers) (name : Name) :
    Matched (forwarder.pit.insert name).2 forwarder.timers := by
  have opened := matched.filed.get?_insert_self name
  refine matched.of_local (local_insert name) (matched.filed.insert name) matched.numbered ?_ ?_
  · intro timer event running mine
    obtain ⟨entry, found, holds⟩ := matched.live running
    rw [mine] at found
    refine ⟨entry, ?_, holds⟩
    rw [opened, found]
    rfl
  · intro entry slot timer found holds
    rw [opened] at found
    cases before : forwarder.pit.get? (forwarder.pit.insert name).1 with
    | some old =>
      rw [before] at found
      cases found
      exact matched.armed before holds
    | none =>
      rw [before] at found
      cases found
      cases slot <;> cases holds

variable {id : PitId} {before : Forwarder} {entry : PitEntry}

theorem upkept_addInRecord (change : Local id before forwarder)
    (matched : Matched forwarder.pit forwarder.timers)
    (found : forwarder.pit.get? id = some entry) (recorded : entry.Recorded forwarder.faces)
    {face : FaceId} {interest : Interest} (present : forwarder.faces.contains face = true)
    (same : interest.name = id.name) :
    Upkept id (PitEntry.putRecord InRecord.face (forwarder.newInRecord face interest)
      entry.inRecords) before ((forwarder.addInRecord id face interest).setUnsatisfyTimer id) := by
  have kept : PitEntry.Keeps (·.addInRecord face interest forwarder.now
      (forwarder.lifetimeOf interest)) := fun _ => ⟨rfl, rfl⟩
  have added : (forwarder.addInRecord id face interest).pit.get? id =
      some (entry.addInRecord face interest forwarder.now (forwarder.lifetimeOf interest)) := by
    rw [addInRecord, get?_updateEntry, found]
    rfl
  have named : interest.name = entry.name := by rw [same, matched.filed.named found]
  exact upkept_setUnsatisfyTimer (change.trans local_updateEntry)
    (matched_updateEntry matched kept fun _ slot => by cases slot <;> rfl) added
    (PitEntry.self_mem_putRecord InRecord.face _ _) (recorded.addInRecord _ _ present named)

theorem lingers_askOnward {face : FaceId} {interest : Interest}
    (lingers : (forwarder.askOnward id face interest).Lingers id) : forwarder.Lingers id := by
  refine Classical.byContradiction fun fresh => ?_
  refine afterReceiveInterest_keeps (fun forwarder => ¬ forwarder.Lingers id)
    (fun _ _ kept _ => mt lingers_sendInterest kept) (fun _ kept _ => mt lingers_reject kept) _ _ ?_
    lingers
  exact mt lingers_setUnsatisfyTimer
    (mt (fun lingers => lingers_updateEntry lingers fun _ => rfl) fresh)

/-- An entry that the cache answers is settled, with nobody left to wait. -/
theorem upkept_answerFromCache (change : Local id before forwarder)
    (matched : Matched forwarder.pit forwarder.timers)
    (found : forwarder.pit.get? id = some entry) (stopped : entry.unsatisfyTimer = none)
    (recorded : entry.Recorded forwarder.faces) (face : FaceId) (interest : Interest) (data : Data) :
    Upkept id [] before (forwarder.answerFromCache id face interest data) := by
  have noted : PitEntry.Keeps (·.addInRecord face interest forwarder.now
      (forwarder.lifetimeOf interest)) := fun _ => ⟨rfl, rfl⟩
  have cleared : PitEntry.Keeps (·.clearInRecords) := fun _ => ⟨rfl, rfl⟩
  have settled : ((forwarder.addInRecord id face interest).updateEntry id
      (·.clearInRecords)).pit.get? id = some (entry.addInRecord face interest forwarder.now
        (forwarder.lifetimeOf interest)).clearInRecords := by
    rw [get?_updateEntry, addInRecord, get?_updateEntry, found]
    rfl
  have upkept : Upkept id [] before (((forwarder.addInRecord id face interest).updateEntry id
      (·.clearInRecords)).setStragglerTimer id true data.freshness) :=
    upkept_setStragglerTimer ((change.trans local_updateEntry).trans local_updateEntry)
      (matched_updateEntry (matched_updateEntry matched noted fun _ slot => by cases slot <;> rfl)
        cleared fun _ slot => by cases slot <;> rfl) settled stopped
      (recorded.of_subset rfl (List.nil_subset _) (List.Subset.refl _)) true data.freshness
  exact upkept.sendData _ face

variable {face : FaceId} {interest : Interest}

/-- A known nonce adds its sender to those that wait, and a settled entry stays
settled. -/
structure Joined (face : FaceId) (interest : Interest) (before after : Forwarder) : Prop where
  upkept : Upkept (before.pit.insert interest.name).1
    (PitEntry.putRecord InRecord.face (before.newInRecord face interest)
      (before.entryFor interest.name).inRecords) before after
  lingers : after.Lingers (before.pit.insert interest.name).1 →
    before.Lingers (before.pit.insert interest.name).1

/-- What becomes of the downstreams of an entry when a request for its name is
handled: the sender waits with the others, or the cache settles the entry, which
it is asked to do only when nobody waits. -/
inductive Handled (face : FaceId) (interest : Interest) (before after : Forwarder) : Prop
  | waits (upkept : Upkept (before.pit.insert interest.name).1
      (PitEntry.putRecord InRecord.face (before.newInRecord face interest)
        (before.entryFor interest.name).inRecords) before after)
      (fresh : ¬ after.Lingers (before.pit.insert interest.name).1)
  | answered
      (idle : (before.entryFor interest.name).hasUnexpiredInRecords before.now = false)
      (upkept : Upkept (before.pit.insert interest.name).1 [] before after)

/-- The entry of a name is there, and a known nonce was counted. -/
def joining (forwarder : Forwarder) (name : Name) : Forwarder :=
  { forwarder with pit := (forwarder.pit.insert name).2 }.count
    fun counters => { counters with duplicateNonces := counters.duplicateNonces + 1 }

theorem joinDuplicate_eq (face : FaceId) (interest : Interest) :
    forwarder.joinDuplicate face interest =
      ((forwarder.joining interest.name).addInRecord (forwarder.pit.insert interest.name).1 face
        interest).setUnsatisfyTimer (forwarder.pit.insert interest.name).1 := rfl

theorem joined_joinDuplicate (matched : Matched forwarder.pit forwarder.timers)
    (recorded : (forwarder.entryFor interest.name).Recorded forwarder.faces)
    (present : forwarder.faces.contains face = true) :
    Joined face interest forwarder (forwarder.joinDuplicate face interest) where
  upkept := by
    have opened : Local (forwarder.pit.insert interest.name).1 forwarder
      (forwarder.joining interest.name) := (local_insert _).trans (local_count _ _)
    have matched' : Matched (forwarder.joining interest.name).pit
      (forwarder.joining interest.name).timers := matched_insert matched interest.name
    rw [joinDuplicate_eq]
    exact upkept_addInRecord opened matched' (matched.filed.get?_insert_self interest.name) recorded
      present (matched.filed.insert_name interest.name).symm
  lingers := by
    intro lingers
    rw [joinDuplicate_eq] at lingers
    have noted := lingers_updateEntry (lingers_setUnsatisfyTimer lingers) fun _ => rfl
    obtain ⟨entry, timer, freshness, found, armed, running⟩ := noted
    have opened := found.symm.trans (matched.filed.get?_insert_self interest.name)
    cases before : forwarder.pit.get? (forwarder.pit.insert interest.name).1 with
    | none =>
      -- An entry that is made here has no timer.
      rw [before] at opened
      rw [Option.some.inj opened] at armed
      cases armed
    | some old =>
      rw [before] at opened
      rw [Option.some.inj opened] at armed
      exact ⟨old, timer, freshness, before, armed, running⟩

/-- The entry of a name is there, and no timer of it runs. -/
def reopen (forwarder : Forwarder) (name : Name) : Forwarder :=
  { forwarder with pit := (forwarder.pit.insert name).2 }.cancelTimers (forwarder.pit.insert name).1

theorem reopen_frame (name : Name) :
    ∃ timers pit, forwarder.reopen name = { forwarder with timers, pit } := by
  obtain ⟨timers, pit, stopped⟩ := { forwarder with
    pit := (forwarder.pit.insert name).2 }.cancelTimers_frame (forwarder.pit.insert name).1
  exact ⟨timers, pit, stopped⟩

theorem local_reopen (matched : Matched forwarder.pit forwarder.timers) (name : Name) :
    Local (forwarder.pit.insert name).1 forwarder (forwarder.reopen name) :=
  (local_insert name).trans (local_cancelTimers ((matched_insert matched name).but _))

theorem matched_reopen (matched : Matched forwarder.pit forwarder.timers) (name : Name) :
    Matched (forwarder.reopen name).pit (forwarder.reopen name).timers :=
  matched_cancelTimers (matched_insert matched name) _

theorem get?_reopen (matched : Matched forwarder.pit forwarder.timers) (name : Name) :
    (forwarder.reopen name).pit.get? (forwarder.pit.insert name).1 =
      some (forwarder.entryFor name).disarmed := by
  rw [reopen, get?_cancelTimers]
  show ((forwarder.pit.insert name).2.get? _).map _ = _
  rw [matched.filed.get?_insert_self name]
  rfl

/-- A request goes to the strategy unless nobody waits and the cache has Data. -/
theorem handleRequest_cases (matched : Matched forwarder.pit forwarder.timers) (face : FaceId)
    (interest : Interest) :
    (∃ misses, forwarder.handleRequest face interest = ((forwarder.reopen interest.name).count
        fun counters => { counters with cacheMisses := misses }).askOnward
          (forwarder.pit.insert interest.name).1 face interest) ∨
      ∃ data, (forwarder.entryFor interest.name).hasUnexpiredInRecords forwarder.now = false ∧
        forwarder.handleRequest face interest = ((forwarder.reopen interest.name).count
          fun counters => { counters with cacheHits := counters.cacheHits + 1 }).answerFromCache
            (forwarder.pit.insert interest.name).1 face interest data := by
  unfold handleRequest
  dsimp only
  split
  · exact Or.inl ⟨_, rfl⟩
  · -- Whether somebody waits is asked of the entry once its timers are stopped.
    rename_i idle
    have nobody : ¬ ((forwarder.reopen interest.name).pit.get? (forwarder.pit.insert interest.name).1).any
      (·.hasUnexpiredInRecords (forwarder.reopen interest.name).now) = true := idle
    rw [get?_reopen matched, (local_reopen matched _).now, Option.any_some, Bool.not_eq_true] at nobody
    split
    · exact Or.inr ⟨_, nobody, rfl⟩
    · exact Or.inl ⟨_, rfl⟩

theorem recorded_reopen (matched : Matched forwarder.pit forwarder.timers) {name : Name}
    (recorded : (forwarder.entryFor name).Recorded forwarder.faces) :
    (forwarder.entryFor name).disarmed.Recorded (forwarder.reopen name).faces := by
  rw [(local_reopen matched name).faces]
  exact recorded.of_subset rfl (List.Subset.refl _) (List.Subset.refl _)

/-- The sender of a request that goes to the strategy waits with the others. -/
theorem upkept_reopen (matched : Matched forwarder.pit forwarder.timers)
    (recorded : (forwarder.entryFor interest.name).Recorded forwarder.faces)
    (present : forwarder.faces.contains face = true) (counts : Counters → Counters) :
    Upkept (forwarder.pit.insert interest.name).1
      (PitEntry.putRecord InRecord.face (forwarder.newInRecord face interest)
        (forwarder.entryFor interest.name).inRecords) forwarder
      ((((forwarder.reopen interest.name).count counts).addInRecord
        (forwarder.pit.insert interest.name).1 face interest).setUnsatisfyTimer
          (forwarder.pit.insert interest.name).1) := by
  have change := local_reopen matched interest.name
  have here : ((forwarder.reopen interest.name).count counts).faces.contains face = true := by
    rw [← present, ← change.faces]
    rfl
  have record : ((forwarder.reopen interest.name).count counts).newInRecord face interest =
      forwarder.newInRecord face interest := by
    have now : ((forwarder.reopen interest.name).count counts).now = forwarder.now := change.now
    have settings : ((forwarder.reopen interest.name).count counts).settings =
      forwarder.settings := change.settings
    rw [newInRecord, lifetimeOf, now, settings]
    rfl
  rw [← record]
  exact upkept_addInRecord (change.trans (local_count _ counts)) (matched_reopen matched interest.name)
    (get?_reopen matched interest.name) (recorded_reopen matched recorded) here
    (matched.filed.insert_name interest.name).symm

/-- When the cache answers a request, nobody waits. -/
theorem upkept_reopen_answered (matched : Matched forwarder.pit forwarder.timers)
    (recorded : (forwarder.entryFor interest.name).Recorded forwarder.faces)
    (counts : Counters → Counters) (data : Data) :
    Upkept (forwarder.pit.insert interest.name).1 [] forwarder
      (((forwarder.reopen interest.name).count counts).answerFromCache
        (forwarder.pit.insert interest.name).1 face interest data) :=
  upkept_answerFromCache ((local_reopen matched interest.name).trans (local_count _ counts))
    (matched_reopen matched interest.name) (get?_reopen matched interest.name) rfl
    (recorded_reopen matched recorded) face interest data

theorem handled_handleRequest (matched : Matched forwarder.pit forwarder.timers)
    (recorded : (forwarder.entryFor interest.name).Recorded forwarder.faces)
    (present : forwarder.faces.contains face = true) :
    Handled face interest forwarder (forwarder.handleRequest face interest) := by
  rcases handleRequest_cases matched face interest with ⟨misses, same⟩ | ⟨data, idle, same⟩
  · have fresh : ¬ (forwarder.reopen interest.name).Lingers (forwarder.pit.insert interest.name).1 :=
      not_lingers_cancelTimers _
    rw [same]
    refine .waits ((upkept_reopen matched recorded present _).afterReceiveInterest _ _)
      fun lingers => ?_
    have settled := lingers_askOnward lingers
    exact fresh settled
  · rw [same]
    exact .answered idle (upkept_reopen_answered matched recorded _ data)

/-- An Interest that is let in came in on a face that is there, and is kept as
it was admitted. -/
theorem judge_letIn {kept : Interest} (judged : forwarder.judge face interest = .duplicate kept ∨
      forwarder.judge face interest = .request kept) :
    kept = forwarder.admitted face interest ∧ forwarder.faces.contains face = true := by
  unfold judge at judged
  split at judged
  · rcases judged with judged | judged <;> cases judged
  · rename_i present
    refine ⟨?_, by simpa using present⟩
    grind

/-- An Interest that came in, before it is judged. -/
def received (forwarder : Forwarder) : Forwarder :=
  forwarder.count fun counters => { counters with inInterests := counters.inInterests + 1 }

theorem judge_count (change : Counters → Counters) :
    (forwarder.count change).judge face interest = forwarder.judge face interest := rfl

theorem receiveInterest_duplicate {kept : Interest}
    (judged : forwarder.judge face interest = .duplicate kept) :
    forwarder.receiveInterest face interest = forwarder.received.joinDuplicate face kept := by
  simp only [receiveInterest, judge_count, judged]
  rfl

theorem receiveInterest_request {kept : Interest}
    (judged : forwarder.judge face interest = .request kept) :
    forwarder.receiveInterest face interest = forwarder.received.handleRequest face kept := by
  simp only [receiveInterest, judge_count, judged]
  rfl

/-- An Interest is turned away, and then only counters change, or it joins those
that wait, or it is a request. -/
theorem receiveInterest_cases (face : FaceId) (interest : Interest) :
    (∃ change, forwarder.receiveInterest face interest = forwarder.count change) ∨
      ∃ kept, forwarder.judge face interest = .duplicate kept ∨
        forwarder.judge face interest = .request kept := by
  cases judged : forwarder.judge face interest with
  | duplicate kept => exact Or.inr ⟨kept, Or.inl rfl⟩
  | request kept => exact Or.inr ⟨kept, Or.inr rfl⟩
  | fromNowhere => exact Or.inl ⟨_, by simp only [receiveInterest, judge_count, judged]; rfl⟩
  | exhausted => exact Or.inl ⟨_, by simp only [receiveInterest, judge_count, judged]; rfl⟩
  | foreign => exact Or.inl ⟨_, by simp only [receiveInterest, judge_count, judged, count_count]; rfl⟩
  | outOfScope => exact Or.inl ⟨_, by simp only [receiveInterest, judge_count, judged, count_count]; rfl⟩
  | looped => exact Or.inl ⟨_, by simp only [receiveInterest, judge_count, judged, count_count]; rfl⟩

theorem joined_receiveInterest (matched : Matched forwarder.pit forwarder.timers)
    (recorded : (forwarder.entryFor interest.name).Recorded forwarder.faces) {kept : Interest}
    (judged : forwarder.judge face interest = .duplicate kept) :
    Joined face (forwarder.admitted face interest) forwarder
      (forwarder.receiveInterest face interest) := by
  obtain ⟨same, present⟩ := judge_letIn (Or.inl judged)
  rw [receiveInterest_duplicate judged, same]
  have joined : Joined face (forwarder.admitted face interest) forwarder.received
    (forwarder.received.joinDuplicate face (forwarder.admitted face interest)) :=
    joined_joinDuplicate matched recorded present
  exact ⟨⟨(local_count _ _).trans joined.upkept.change, joined.upkept.matched, joined.upkept.entry⟩,
    joined.lingers⟩

theorem handled_receiveInterest (matched : Matched forwarder.pit forwarder.timers)
    (recorded : (forwarder.entryFor interest.name).Recorded forwarder.faces) {kept : Interest}
    (judged : forwarder.judge face interest = .request kept) :
    Handled face (forwarder.admitted face interest) forwarder
      (forwarder.receiveInterest face interest) := by
  obtain ⟨same, present⟩ := judge_letIn (Or.inr judged)
  rw [receiveInterest_request judged, same]
  have handled : Handled face (forwarder.admitted face interest) forwarder.received
    (forwarder.received.handleRequest face (forwarder.admitted face interest)) :=
    handled_handleRequest matched recorded present
  rcases handled with ⟨upkept, fresh⟩ | ⟨idle, upkept⟩
  · exact .waits ⟨(local_count _ _).trans upkept.change, upkept.matched, upkept.entry⟩ fresh
  · exact .answered idle ⟨(local_count _ _).trans upkept.change, upkept.matched, upkept.entry⟩

theorem upkept_receiveInterest (matched : Matched forwarder.pit forwarder.timers)
    (recorded : (forwarder.entryFor interest.name).Recorded forwarder.faces) {kept : Interest}
    (judged : forwarder.judge face interest = .duplicate kept ∨
      forwarder.judge face interest = .request kept) :
    ∃ records, Upkept (forwarder.pit.insert interest.name).1 records forwarder
      (forwarder.receiveInterest face interest) := by
  rcases judged with judged | judged
  · exact ⟨_, (joined_receiveInterest matched recorded judged).upkept⟩
  · rcases handled_receiveInterest matched recorded judged with ⟨upkept, _⟩ | ⟨_, upkept⟩
    · exact ⟨_, upkept⟩
    · exact ⟨_, upkept⟩

end Forwarder

end NamedData
