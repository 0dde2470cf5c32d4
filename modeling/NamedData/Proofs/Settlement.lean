import NamedData.Forwarder.Outbox
import NamedData.Proofs.Departure

namespace NamedData

namespace PitEntry

/-- An entry that Data from a face has settled: nobody waits for it any more, and
one timer is left to clear it away. -/
def settled (entry : PitEntry) (source : FaceId) (timer : TimerId) : PitEntry :=
  { entry with
    inRecords := []
    outRecords := entry.outRecords.filter (·.face != source)
    unsatisfyTimer := none
    stragglerTimer := some timer }

theorem settled_settled (entry : PitEntry) (source : FaceId) (first second : TimerId) :
    (entry.settled source first).settled source second = entry.settled source second := by
  simp [settled, List.filter_filter]

theorem Timed.settled (entry : PitEntry) (source : FaceId) (timer : TimerId) :
    Timed (entry.settled source timer) where
  covered armed := by cases armed
  awaited idle := by cases idle

theorem Recorded.settled {faces : FaceTable} {entry : PitEntry} (recorded : Recorded faces entry)
    (source : FaceId) (timer : TimerId) : Recorded faces (entry.settled source timer) :=
  recorded.of_subset rfl (List.nil_subset _) fun _ member => (List.mem_filter.mp member).1

end PitEntry

namespace Forwarder

variable {forwarder : Forwarder} {source : FaceId} {data : Data}

/-- The entry is settled, and the timer that will clear it away runs. -/
def SettledAt (after : Forwarder) (id : PitId) (entry : PitEntry) (source : FaceId) (data : Data)
    (due : Instant) : Prop :=
  ∃ timer, timer.deadline = due ∧
    after.timers.running[timer]? = some (.straggler id true data.freshness) ∧
    after.pit.get? id = some (entry.settled source timer)

theorem satisfy_of_none {id : PitId} (missing : forwarder.pit.get? id = none) :
    forwarder.satisfy source data id = forwarder := by
  simp only [satisfy, cancelTimers_of_none missing, missing]

theorem satisfy_eq (source : FaceId) (data : Data) {id : PitId} {entry : PitEntry}
    (found : forwarder.pit.get? id = some entry) :
    ∃ deadNonces, (∃ keys, deadNonces = forwarder.deadNonces.addAll keys forwarder.now) ∧
      forwarder.satisfy source data id =
      ({ forwarder.cancelTimers id with deadNonces }.updateEntry id fun entry =>
        entry.clearInRecords.deleteOutRecord source).setStragglerTimer id true data.freshness := by
  have disarmed : (forwarder.cancelTimers id).pit.get? id = some entry.disarmed := by
    rw [get?_cancelTimers, found]
    rfl
  refine ⟨((forwarder.cancelTimers id).noteDeadNonces id true data.freshness
    (some source)).deadNonces, ?_, ?_⟩
  · obtain ⟨keys, noted⟩ :=
      (forwarder.cancelTimers id).noted_noteDeadNonces id true data.freshness (some source)
    refine ⟨keys, ?_⟩
    rw [noted, now_cancelTimers, cancelTimers_eq found]
  simp only [satisfy, disarmed, Strategy.beforeSatisfyInterest]
  rw [← noteDeadNonces_eq]

theorem satisfy_spec (matched : Matched forwarder.pit forwarder.timers) (source : FaceId)
    (data : Data) (id : PitId) :
    Local id forwarder (forwarder.satisfy source data id) ∧
      Matched (forwarder.satisfy source data id).pit (forwarder.satisfy source data id).timers ∧
      ∀ entry, forwarder.pit.get? id = some entry →
        (forwarder.satisfy source data id).SettledAt id entry source data
          (forwarder.now + forwarder.settings.stragglerDelay) := by
  cases found : forwarder.pit.get? id with
  | none =>
    rw [satisfy_of_none found]
    exact ⟨.refl id forwarder, matched, fun _ impossible => by cases impossible⟩
  | some entry =>
    have kept : PitEntry.Keeps (·.clearInRecords.deleteOutRecord source) := fun _ => ⟨rfl, rfl⟩
    obtain ⟨deadNonces, ⟨keys, noted⟩, same⟩ := satisfy_eq source data found
    obtain ⟨idle, isIdle⟩ : ∃ idle, idle = { forwarder.cancelTimers id with deadNonces }.updateEntry id
      fun entry => entry.clearInRecords.deleteOutRecord source := ⟨_, rfl⟩
    have change : Local id forwarder idle := by
      have stopped := local_cancelTimers (matched.but id)
      have noting : Local id forwarder { forwarder.cancelTimers id with deadNonces } :=
        ⟨⟨stopped.now, stopped.faces, stopped.settings, stopped.created, keys, noted⟩,
          stopped.entries, stopped.timers⟩
      rw [isIdle]
      exact noting.trans local_updateEntry
    have matched' : Matched idle.pit idle.timers := by
      rw [isIdle]
      exact @matched_updateEntry { forwarder.cancelTimers id with deadNonces }
        (matched_cancelTimers matched id) id _ kept fun _ slot => by cases slot <;> rfl
    have cleared : idle.pit.get? (TimerEvent.straggler id true data.freshness).entry =
        some (entry.disarmed.clearInRecords.deleteOutRecord source) := by
      rw [isIdle]
      refine get?_updateEntry.trans ?_
      show Option.map _ ((forwarder.cancelTimers id).pit.get? id) = _
      rw [get?_cancelTimers, found]
      rfl
    rw [same, ← isIdle, @setStragglerTimer_eq idle id _ true data.freshness cleared]
    refine ⟨change.trans (local_rearm matched' _ cleared), matched_rearm matched' _ cleared, ?_⟩
    intro other same'
    cases same'
    refine ⟨idle.nextTimer (idle.now + idle.settings.stragglerDelay), ?_, ?_, ?_⟩
    · rw [← change.now, ← change.settings]
      exact Duration.max_add_left _ _
    · rw [running_rearm, if_pos rfl]
    · exact get?_rearm _ cleared

/-- Settling entries one after another settles each of them, and every other
entry stays as it was. -/
theorem satisfyAll_spec (matched : Matched forwarder.pit forwarder.timers) (source : FaceId)
    (data : Data) (ids : List PitId) :
    Matched (ids.foldl (satisfy source data) forwarder).pit
        (ids.foldl (satisfy source data) forwarder).timers ∧
      Steady forwarder (ids.foldl (satisfy source data) forwarder) ∧
      (∀ id, (id ∈ ids → forwarder.pit.get? id = none) →
        (ids.foldl (satisfy source data) forwarder).pit.get? id = forwarder.pit.get? id) ∧
      (∀ (timer : TimerId) (event : TimerEvent), event.entry ∉ ids →
        ((ids.foldl (satisfy source data) forwarder).timers.running[timer]? = some event ↔
          forwarder.timers.running[timer]? = some event)) ∧
      ∀ id ∈ ids, ∀ entry, forwarder.pit.get? id = some entry →
        (ids.foldl (satisfy source data) forwarder).SettledAt id entry source data
          (forwarder.now + forwarder.settings.stragglerDelay) := by
  induction ids generalizing forwarder with
  | nil =>
    exact ⟨matched, .refl forwarder, fun _ _ => rfl, fun _ _ _ => Iff.rfl, fun _ impossible => by
      cases impossible⟩
  | cons first rest ih =>
    obtain ⟨change, matched', settles⟩ := satisfy_spec matched source data first
    obtain ⟨matched'', steady, others, timers, settled⟩ := ih matched'
    rw [change.now, change.settings] at settled
    rw [List.foldl_cons]
    refine ⟨matched'', change.toSteady.trans steady, ?_, ?_, ?_⟩
    · intro id absent
      have kept : (forwarder.satisfy source data first).pit.get? id = forwarder.pit.get? id := by
        by_cases mine : id = first
        · rw [← mine, satisfy_of_none (absent (List.mem_cons.mpr (Or.inl mine)))]
        · exact change.entries id mine
      rw [others id fun later => kept.trans (absent (List.mem_cons_of_mem first later)), kept]
    · intro timer event absent
      obtain ⟨notFirst, notLater⟩ := not_or.mp (mt List.mem_cons.mpr absent)
      exact (timers timer event notLater).trans (change.timers timer event notFirst)
    · intro id member entry found
      by_cases mine : id = first
      · subst mine
        obtain ⟨timer, due, running, here⟩ := settles entry found
        -- Settled twice is settled, with a timer that was set later.
        by_cases again : id ∈ rest
        · obtain ⟨timer', due', running', here'⟩ := settled id again _ here
          exact ⟨timer', due', running', by rw [here', PitEntry.settled_settled]⟩
        · exact ⟨timer, due, (timers timer (.straggler id true _) again).mpr running,
            (others id fun later => absurd later again).trans here⟩
      · have later := (List.mem_cons.mp member).resolve_left mine
        exact settled id later entry ((change.entries id mine).trans found)

theorem mem_insertFace {face other : FaceId} {faces : List FaceId} :
    other ∈ insertFace face faces ↔ other = face ∨ other ∈ faces := by
  induction faces with
  | nil => simp [insertFace]
  | cons first rest ih =>
    rw [insertFace]
    split
    · exact List.mem_cons
    · split
      · rename_i same
        simp [same]
      · rw [List.mem_cons, ih, List.mem_cons]
        exact or_left_comm

theorem ascending_insertFace {face : FaceId} {faces : List FaceId}
    (ascending : faces.Pairwise fun a b => a.number < b.number) :
    (insertFace face faces).Pairwise fun a b => a.number < b.number := by
  induction faces with
  | nil => exact List.pairwise_singleton _ face
  | cons first rest ih =>
    obtain ⟨above, later⟩ := List.pairwise_cons.mp ascending
    rw [insertFace]
    split
    · rename_i lower
      refine List.pairwise_cons.mpr ⟨fun other member => ?_, ascending⟩
      rcases List.mem_cons.mp member with same | member
      · rw [same]; exact lower
      · exact Nat.lt_trans lower (above other member)
    · split
      · exact ascending
      · rename_i notLower different
        refine List.pairwise_cons.mpr ⟨fun other member => ?_, ih later⟩
        rcases mem_insertFace.mp member with same | member
        · have apart : first.number ≠ face.number := fun same =>
            different (congrArg FaceId.mk same).symm
          rw [same]
          omega
        · exact above other member

theorem nodup_waitingFaces (ids : List PitId) : (forwarder.waitingFaces ids).Nodup := by
  have ascending : ∀ faces : List FaceId,
      (faces.foldr insertFace []).Pairwise fun a b => a.number < b.number := by
    intro faces
    induction faces with
    | nil => exact List.Pairwise.nil
    | cons face rest ih => exact ascending_insertFace ih
  refine (ascending _).imp fun lower same => ?_
  rw [same] at lower
  exact Nat.lt_irrefl _ lower

theorem mem_waitingFaces {ids : List PitId} {face : FaceId} :
    face ∈ forwarder.waitingFaces ids ↔ ∃ id ∈ ids, ∃ entry, forwarder.pit.get? id = some entry ∧
      ∃ record ∈ entry.inRecords, forwarder.now < record.expiry ∧ record.face = face := by
  have sorted : ∀ faces : List FaceId, face ∈ faces.foldr insertFace [] ↔ face ∈ faces := by
    intro faces
    induction faces with
    | nil => exact Iff.rfl
    | cons first rest ih => rw [List.foldr_cons, mem_insertFace, ih, List.mem_cons]
  simp only [waitingFaces, sorted, List.mem_map, List.mem_filter, List.mem_flatMap,
    List.mem_filterMap, decide_eq_true_eq]
  constructor
  · rintro ⟨record, ⟨⟨entry, ⟨id, member, found⟩, waits⟩, unexpired⟩, same⟩
    exact ⟨id, member, entry, found, record, waits, unexpired, same⟩
  · rintro ⟨id, member, entry, found, record, waits, unexpired, same⟩
    exact ⟨record, ⟨⟨entry, ⟨id, member, found⟩, waits⟩, unexpired⟩, same⟩

/-- Data may go out on a face: it is there, and the name stays on the host only
when the face does. -/
def maySend (forwarder : Forwarder) (data : Data) (face : FaceId) : Bool :=
  forwarder.isReachable face &&
    (forwarder.faces.isLocal face || !Name.localhost.isPrefixOf data.name)

theorem sent_sendData (data : Data) (face : FaceId) :
    (forwarder.sendData data face).outbox.sent = forwarder.outbox.sent ++
      if forwarder.maySend data face then [(face, .data { data with incomingFace := none })]
      else [] := by
  unfold sendData maySend
  cases reachable : forwarder.isReachable face with
  | false => simp [count]
  | true =>
    cases isLocal : forwarder.faces.isLocal face <;>
      cases barred : Name.localhost.isPrefixOf data.name <;> simp [count, Outbox.push]

theorem sendAll_spec (data : Data) (faces : List FaceId) :
    ∃ outbox counters,
      faces.foldl (fun forwarder face => forwarder.sendData data face) forwarder =
        { forwarder with outbox, counters } ∧
      outbox.sent = forwarder.outbox.sent ++ (faces.filter (forwarder.maySend data)).map
        fun face => (face, .data { data with incomingFace := none }) := by
  induction faces generalizing forwarder with
  | nil => exact ⟨forwarder.outbox, forwarder.counters, rfl, by simp⟩
  | cons first rest ih =>
    obtain ⟨outbox, counters, same, sent⟩ := @ih (forwarder.sendData data first)
    refine ⟨outbox, counters, ?_, ?_⟩
    · rw [List.foldl_cons, same, sendData_eq]
    · have kept : (forwarder.sendData data first).maySend data = forwarder.maySend data := by
        rw [sendData_eq]
        rfl
      rw [sent, kept, sent_sendData, List.filter_cons]
      split <;> simp

/-- Data that comes in on no face or from outside its scope is dropped, and
Data that nobody waits for may at most be cached. -/
theorem receiveData_cases (face : FaceId) (data : Data) :
    (∃ contentStore counters, forwarder.receiveData face data =
        { forwarder with contentStore, counters } ∧
        (forwarder.pit.dataMatches data.name = [] ∨ forwarder.faces.contains face = false ∨
          forwarder.faces.isLocal face = false ∧ Name.localhost.isPrefixOf data.name = true)) ∨
      ∃ contentStore counters, forwarder.pit.dataMatches data.name ≠ [] ∧
        forwarder.faces.contains face = true ∧
        (forwarder.faces.isLocal face = true ∨ Name.localhost.isPrefixOf data.name = false) ∧
        forwarder.receiveData face data =
          ((forwarder.waitingFaces (forwarder.pit.dataMatches data.name)).filter (· != face)).foldl
            (fun forwarder downstream =>
              forwarder.sendData { data with incomingFace := some face } downstream)
            ((forwarder.pit.dataMatches data.name).foldl
              (satisfy face { data with incomingFace := some face })
              { forwarder with contentStore, counters }) := by
  unfold receiveData
  dsimp only
  split
  · rename_i absent
    exact Or.inl ⟨forwarder.contentStore, _, rfl, Or.inr (Or.inl (by simpa [count] using absent))⟩
  · rename_i present
    split
    · rename_i barred
      exact Or.inl ⟨forwarder.contentStore, _, rfl, Or.inr (Or.inr (by simpa [count] using barred))⟩
    · rename_i inScope
      split
      · rename_i unasked
        unfold receiveUnsolicited
        dsimp only
        split
        · exact Or.inl ⟨_, _, rfl, Or.inl unasked⟩
        · exact Or.inl ⟨forwarder.contentStore, _, rfl, Or.inl unasked⟩
      · rename_i asked
        refine Or.inr ⟨_, _, asked, by simpa [count] using present, ?_, rfl⟩
        cases isLocal : forwarder.faces.isLocal face with
        | true => exact Or.inl rfl
        | false => exact Or.inr (by simpa [count, isLocal] using inScope)

end Forwarder

end NamedData
