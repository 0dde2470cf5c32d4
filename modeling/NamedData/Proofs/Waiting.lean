import NamedData.Proofs.EntryChanges

namespace NamedData

namespace Forwarder

/-- A downstream waits in an entry, and its time is not up. -/
structure Waits (forwarder : Forwarder) (id : PitId) (record : InRecord) : Prop where
  listed : ∃ entry, forwarder.pit.get? id = some entry ∧ record ∈ entry.inRecords
  unexpired : forwarder.now < record.expiry

/-- Whether a downstream of an entry waits past a time. -/
def waitsPast (forwarder : Forwarder) (id : PitId) (face : FaceId) (time : Instant) : Bool :=
  (forwarder.pit.get? id).any fun entry =>
    entry.inRecords.any fun record => record.face == face && time < record.expiry

theorem exists_waits {forwarder : Forwarder} {id : PitId} {face : FaceId} :
    (∃ record, record.face = face ∧ forwarder.Waits id record) ↔
      forwarder.waitsPast id face forwarder.now = true := by
  simp only [waitsPast, Option.any_eq_true, List.any_eq_true, Bool.and_eq_true, beq_iff_eq,
    decide_eq_true_eq]
  constructor
  · rintro ⟨record, same, ⟨entry, found, member⟩, unexpired⟩
    exact ⟨entry, found, record, member, same, unexpired⟩
  · rintro ⟨entry, found, record, member, same, unexpired⟩
    exact ⟨record, same, ⟨entry, found, member⟩, unexpired⟩

/-- What an action leaves of a record that it does not end: the record itself,
or the one that a newer Interest from the same face puts in its place. -/
def Renews (forwarder : Forwarder) (id : PitId) (record : InRecord) (action : Action)
    (renewed : InRecord) : Prop :=
  renewed = record ∨ ∃ interest, action = .receiveInterest record.face interest ∧
    interest.name = id.name ∧
    renewed = forwarder.newInRecord record.face (forwarder.admitted record.face interest)

/-- How the wait of a downstream ends. -/
inductive WaitEnds (forwarder : Forwarder) (id : PitId) (record : InRecord) : Action → Prop
  /-- Data that the entry asks for goes to the face. -/
  | answered {source : FaceId} {data : Data} (under : id.name.isPrefixOf data.name = true)
      (sent : (record.face, .data { data with incomingFace := none }) ∈
        forwarder.sends (.receiveData source data)) :
      WaitEnds forwarder id record (.receiveData source data)
  /-- The face itself sends that Data. -/
  | ownData {data : Data} (accepts : forwarder.Accepts record.face data.name)
      (under : id.name.isPrefixOf data.name = true) :
      WaitEnds forwarder id record (.receiveData record.face data)
  /-- That Data comes, but its name stays on the host and the face does not. -/
  | barred {source : FaceId} {data : Data} (accepts : forwarder.Accepts source data.name)
      (under : id.name.isPrefixOf data.name = true)
      (outside : forwarder.Barred record.face data.name) :
      WaitEnds forwarder id record (.receiveData source data)
  | left : WaitEnds forwarder id record (.removeFace record.face)
  /-- The timer goes off that a rejection of the entry has set. -/
  | rejected {limit : Instant} {timer : Timer TimerEvent} {rest : Timers TimerEvent}
      {freshness : Option Duration}
      (popped : forwarder.timers.popDue? limit = some (timer, rest))
      (event : timer.payload = .straggler id false freshness) :
      WaitEnds forwarder id record (.fireNext limit)
  /-- The time that the face asked for, last, is up. -/
  | expired {action : Action} {renewed : InRecord}
      (renews : forwarder.Renews id record action renewed)
      (late : renewed.expiry ≤ (forwarder.act action).now) : WaitEnds forwarder id record action

/-- The timer goes off that was set when the entry was satisfied. -/
def Sweeps (forwarder : Forwarder) (id : PitId) (action : Action) : Prop :=
  ∃ limit timer rest freshness, action = .fireNext limit ∧
    forwarder.timers.popDue? limit = some (timer, rest) ∧
    timer.payload = .straggler id true freshness

variable {forwarder : Forwarder} {id : PitId} {record : InRecord} {action : Action}

theorem waits_or_expired {renewed : InRecord}
    (renews : forwarder.Renews id record action renewed)
    (listed : ∃ entry, (forwarder.act action).pit.get? id = some entry ∧
      renewed ∈ entry.inRecords) :
    (∃ renewed, forwarder.Renews id record action renewed ∧
      (forwarder.act action).Waits id renewed) ∨ forwarder.WaitEnds id record action := by
  by_cases late : renewed.expiry ≤ (forwarder.act action).now
  · exact Or.inr (.expired renews late)
  · exact Or.inl ⟨renewed, renews, listed, Nat.lt_of_not_le late⟩

/-- An Interest that adds a record keeps those of other faces and renews the one
of its own. -/
theorem renews_putRecord {entry : PitEntry} (found : forwarder.pit.get? id = some entry)
    (member : record ∈ entry.inRecords) (face : FaceId) {interest : Interest}
    (mine : (forwarder.pit.insert interest.name).1 = id) (filed : forwarder.pit.Filed) :
    ∃ renewed, forwarder.Renews id record (.receiveInterest face interest) renewed ∧
      renewed ∈ PitEntry.putRecord InRecord.face
        (forwarder.newInRecord face (forwarder.admitted face interest))
        (forwarder.entryFor interest.name).inRecords := by
  rw [entryFor_of_get? (show forwarder.pit.get? (forwarder.pit.insert interest.name).1 = some entry by
    rw [mine]; exact found)]
  by_cases own : record.face = face
  · refine ⟨_, Or.inr ⟨interest, by rw [own], ?_, rfl⟩, ?_⟩
    · rw [← mine, filed.insert_name]
    · rw [own]
      exact PitEntry.self_mem_putRecord _ _ _
  · exact ⟨record, Or.inl rfl, PitEntry.mem_putRecord_of_ne member own⟩

theorem waitEnds_receiveData (sound : Sound forwarder) (waits : forwarder.Waits id record)
    {source : FaceId} {data : Data} (accepts : forwarder.Accepts source data.name)
    (under : id.name.isPrefixOf data.name = true) :
    forwarder.WaitEnds id record (.receiveData source data) := by
  obtain ⟨entry, found, member⟩ := waits.listed
  by_cases own : record.face = source
  · subst own
    exact .ownData accepts under
  · by_cases outside : forwarder.Barred record.face data.name
    · exact .barred accepts under outside
    · obtain ⟨downstreams, _, listed, sent⟩ :=
        (sound.fannedOut source data accepts.1 accepts.2).sent
      have awaits : forwarder.Awaits record.face data.name :=
        ⟨id, entry, record, found, under, member, rfl, waits.unexpired⟩
      refine .answered under ?_
      show _ ∈ (forwarder.receiveData source data).outbox.sent.drop forwarder.outbox.sent.length
      rw [sent, List.drop_left]
      exact List.mem_map.mpr ⟨record.face, (listed _).mpr ⟨awaits, own, outside⟩, rfl⟩

/-- The removal of another face keeps the entry and the record. -/
theorem forget_of_ne {entry : PitEntry} {face : FaceId} (member : record ∈ entry.inRecords)
    (other : record.face ≠ face) :
    ∃ rest, entry.forget face = some rest ∧ record ∈ rest.inRecords := by
  have kept : record ∈ (entry.deleteInRecord face).inRecords :=
    List.mem_filter.mpr ⟨member, bne_iff_ne.mpr other⟩
  refine ⟨(entry.deleteInRecord face).deleteOutRecord face, ?_, kept⟩
  rw [PitEntry.forget, if_neg]
  rw [List.isEmpty_eq_false_iff.mpr (List.ne_nil_of_mem kept), Bool.and_false]
  exact Bool.false_ne_true

/-- What a removal leaves of an entry has fewer downstreams and the same timers. -/
theorem forget_eq_some {entry rest : PitEntry} {face : FaceId} (left : entry.forget face = some rest) :
    rest.stragglerTimer = entry.stragglerTimer ∧ rest.inRecords ⊆ entry.inRecords := by
  unfold PitEntry.forget at left
  split at left
  · cases left
  · cases left
    exact ⟨rfl, fun _ member => (List.mem_filter.mp member).1⟩

theorem now_fireNext {limit : Instant} {timer : Timer TimerEvent} {rest : Timers TimerEvent}
    (popped : forwarder.timers.popDue? limit = some (timer, rest)) :
    (forwarder.act (.fireNext limit)).now = max forwarder.now timer.id.deadline := by
  rw [act_fireNext_of_popDue? popped, now_fire]
  show rest.now = _
  rw [(Timers.popDue?_eq_some popped).2.2]
  rfl

/-- The timer that ends the wait goes off no earlier than the last downstream
gives up. -/
theorem waitEnds_unsatisfy (sound : Sound forwarder) (waits : forwarder.Waits id record)
    {limit : Instant} {timer : Timer TimerEvent} {rest : Timers TimerEvent}
    (popped : forwarder.timers.popDue? limit = some (timer, rest))
    (event : timer.payload = .unsatisfy id) :
    forwarder.WaitEnds id record (.fireNext limit) := by
  obtain ⟨entry, found, member⟩ := waits.listed
  obtain ⟨owner, atOwner, holds⟩ := popped_owner sound.matched popped
  rw [event] at atOwner holds
  have same : owner = entry := Option.some.inj (atOwner.symm.trans found)
  rw [same] at holds
  have bound : record.expiry ≤ timer.id.deadline := (sound.timed found).covered holds member
  refine .expired (Or.inl rfl) ?_
  rw [now_fireNext popped, Duration.le_def, Duration.nanos_max]
  exact Nat.le_trans bound (Nat.le_max_right _ _)

/-- No action loses a downstream that waits: it waits on, or its wait has ended
in one of the ways there are, or the entry was settled before and is swept
away. -/
theorem Sound.wait_step (sound : Sound forwarder) (waits : forwarder.Waits id record)
    (action : Action) :
    (∃ renewed, forwarder.Renews id record action renewed ∧
      (forwarder.act action).Waits id renewed) ∨
      forwarder.WaitEnds id record action ∨ forwarder.Sweeps id action := by
  obtain ⟨entry, found, member⟩ := waits.listed
  have stays : (∃ renewed, forwarder.Renews id record action renewed ∧
      ∃ entry, (forwarder.act action).pit.get? id = some entry ∧ renewed ∈ entry.inRecords) →
      (∃ renewed, forwarder.Renews id record action renewed ∧
        (forwarder.act action).Waits id renewed) ∨
        forwarder.WaitEnds id record action ∨ forwarder.Sweeps id action := by
    rintro ⟨renewed, renews, listed⟩
    exact (waits_or_expired renews listed).imp_right Or.inl
  rcases sound.quiet_or_touches id action with quiet | touches
  · exact stays ⟨record, Or.inl rfl, entry, quiet.entry.trans found, member⟩
  · cases touches with
    | @joins face interest judged mine =>
      obtain ⟨after, here, records, _⟩ :=
        (joined_receiveInterest sound.matched (sound.entryFor _) judged).upkept.entry
      obtain ⟨renewed, renews, listed⟩ :=
        renews_putRecord found member face mine sound.matched.filed
      have atId : (forwarder.act (.receiveInterest face interest)).pit.get? id = some after := by
        rw [← mine]; exact here
      exact stays ⟨renewed, renews, after, atId, by rw [records]; exact listed⟩
    | @asks face interest judged mine =>
      rcases handled_receiveInterest sound.matched (sound.entryFor _) judged with
        ⟨upkept, _⟩ | ⟨idle, _⟩
      · obtain ⟨after, here, records, _⟩ := upkept.entry
        obtain ⟨renewed, renews, listed⟩ :=
          renews_putRecord found member face mine sound.matched.filed
        have atId : (forwarder.act (.receiveInterest face interest)).pit.get? id = some after := by
          rw [← mine]; exact here
        exact stays ⟨renewed, renews, after, atId, by rw [records]; exact listed⟩
      · -- The cache is not asked while this downstream waits.
        have same : forwarder.entryFor interest.name = entry :=
          entryFor_of_get? (by rw [mine]; exact found)
        have waiting : entry.hasUnexpiredInRecords forwarder.now = true :=
          List.any_eq_true.mpr ⟨record, member, decide_eq_true waits.unexpired⟩
        rw [show (forwarder.entryFor (forwarder.admitted face interest).name) = entry from same,
          waiting] at idle
        cases idle
    | answers accepts under => exact Or.inr (Or.inl (waitEnds_receiveData sound waits accepts under))
    | @leaves face after removed =>
      by_cases own : record.face = face
      · subst own
        exact Or.inr (Or.inl .left)
      · obtain ⟨_, _, _, entries⟩ := removeFace_spec sound.matched removed
        obtain ⟨rest, left, kept⟩ := forget_of_ne member own
        refine stays ⟨record, Or.inl rfl, rest, ?_, kept⟩
        rw [act_removeFace removed, entries, found, Option.bind_some, left]
    | sends face hint newNonce =>
      obtain ⟨after, here, records, _⟩ := ((sound.upkept found).sendInterest face hint newNonce).entry
      exact stays ⟨record, Or.inl rfl, after, here, by rw [records]; exact member⟩
    | rejects =>
      obtain ⟨after, here, records, _⟩ := (sound.upkept found).reject.entry
      exact stays ⟨record, Or.inl rfl, after, here, by rw [records]; exact member⟩
    | @ends limit timer rest popped mine =>
      cases event : timer.payload with
      | unsatisfy other =>
        rw [event] at mine
        subst mine
        exact Or.inr (Or.inl (waitEnds_unsatisfy sound waits popped event))
      | straggler other satisfied freshness =>
        rw [event] at mine
        subst mine
        cases satisfied with
        | false => exact Or.inr (Or.inl (.rejected popped event))
        | true => exact Or.inr (Or.inr ⟨limit, timer, rest, freshness, rfl, popped, event⟩)

end Forwarder

end NamedData
