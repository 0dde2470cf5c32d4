import NamedData.Proofs.Actions
import NamedData.Proofs.Reception
import NamedData.Proofs.Settlement

namespace NamedData

theorem FaceTable.contains_iff {table : FaceTable} {face : FaceId} :
    table.contains face = true ↔ face ∈ table.ids := by
  simp [FaceTable.contains, FaceTable.find?, FaceTable.ids]

theorem FaceTable.mem_place {id : FaceId} {face : Face} {row : FaceId × Face}
    {rows : List (FaceId × Face)} : row ∈ place id face rows ↔ row = (id, face) ∨ row ∈ rows := by
  induction rows with
  | nil => simp [place]
  | cons first rest ih =>
    rw [place]
    split
    · rw [List.mem_cons, ih, List.mem_cons]
      exact or_left_comm
    · exact List.mem_cons

theorem FaceTable.mem_ids_place {id other : FaceId} {face : Face} {rows : List (FaceId × Face)} :
    other ∈ (place id face rows).map (·.1) ↔ other = id ∨ other ∈ rows.map (·.1) := by
  simp only [List.mem_map, mem_place]
  constructor
  · rintro ⟨row, rfl | member, rfl⟩
    · exact Or.inl rfl
    · exact Or.inr ⟨row, member, rfl⟩
  · rintro (rfl | ⟨row, member, rfl⟩)
    · exact ⟨_, Or.inl rfl, rfl⟩
    · exact ⟨row, Or.inr member, rfl⟩

namespace Forwarder

/-- What holds of a forwarder at any time: entries and timers are matched, faces
have proper numbers, and every entry is in order. -/
structure Sound (forwarder : Forwarder) : Prop where
  matched : Matched forwarder.pit forwarder.timers
  valid : ∀ {face : FaceId}, forwarder.faces.contains face = true → face.isValid = true
  timed : ∀ {id : PitId} {entry : PitEntry}, forwarder.pit.get? id = some entry → entry.Timed
  recorded : ∀ {id : PitId} {entry : PitEntry}, forwarder.pit.get? id = some entry →
    entry.Recorded forwarder.faces

variable {before after : Forwarder}

theorem sound_start {settings : Settings} {contentStore : ContentStore} {counters : Counters}
    {nonces : NonceSource} {start : Forwarder}
    (made : withParts settings contentStore counters nonces = .ok start) : Sound start := by
  unfold withParts at made
  split at made
  · cases made
  · cases made
    have nothing : ∀ {id : PitId} {entry : PitEntry}, Pit.empty.get? id ≠ some entry := by
      intro id entry found
      simp [Pit.empty, Pit.get?] at found
    exact ⟨.empty, fun present => (by cases present), fun found => absurd found nothing,
      fun found => absurd found nothing⟩

theorem Sound.of_same (sound : Sound before) (pit : after.pit = before.pit)
    (timers : after.timers = before.timers) (faces : after.faces = before.faces) :
    Sound after where
  matched := by rw [pit, timers]; exact sound.matched
  valid := by rw [faces]; exact sound.valid
  timed := by rw [pit]; exact sound.timed
  recorded := by rw [pit, faces]; exact sound.recorded

theorem Sound.of_faces (sound : Sound before) (pit : after.pit = before.pit)
    (timers : after.timers = before.timers)
    (more : ∀ face : FaceId, before.faces.contains face = true → after.faces.contains face = true)
    (valid : ∀ {face : FaceId}, after.faces.contains face = true → face.isValid = true) :
    Sound after where
  matched := by rw [pit, timers]; exact sound.matched
  valid := valid
  timed := by rw [pit]; exact sound.timed
  recorded found := by
    rw [pit] at found
    have recorded := sound.recorded found
    exact ⟨recorded.named, fun member => more _ (recorded.inFaces member),
      fun member => more _ (recorded.outFaces member)⟩

theorem Sound.of_upkept {id : PitId} {records : List InRecord} (sound : Sound before)
    (upkept : Upkept id records before after) : Sound after := by
  obtain ⟨entry, found, _, timed, recorded⟩ := upkept.entry
  refine ⟨upkept.matched, ?_, ?_, ?_⟩
  · rw [upkept.change.faces]
    exact sound.valid
  · intro other owner here
    by_cases mine : other = id
    · rw [mine, found] at here
      cases here
      exact timed
    · rw [upkept.change.entries other mine] at here
      exact sound.timed here
  · intro other owner here
    by_cases mine : other = id
    · rw [mine, found] at here
      cases here
      exact recorded
    · rw [upkept.change.entries other mine] at here
      rw [upkept.change.faces]
      exact sound.recorded here

theorem Sound.addFace (sound : Sound before) (face : Face) : Sound (before.addFace face).2 := by
  refine sound.of_faces rfl rfl ?_ ?_
  · intro other present
    rw [FaceTable.contains_iff] at present ⊢
    exact FaceTable.mem_ids_place.mpr (Or.inr present)
  · intro other present
    rw [FaceTable.contains_iff] at present
    rcases FaceTable.mem_ids_place.mp present with new | old
    · have proper : (⟨256 + before.faces.added⟩ : FaceId) ≠ FaceId.invalid := by
        intro same
        have numbers : 256 + before.faces.added = 0 := congrArg FaceId.number same
        omega
      rw [new]
      exact bne_iff_ne.mpr proper
    · exact sound.valid (FaceTable.contains_iff.mpr old)

theorem Sound.addReservedFace (sound : Sound before) (id : FaceId) (face : Face) :
    Sound ((before.addReservedFace id face).toOption.getD before) := by
  unfold Forwarder.addReservedFace FaceTable.addReserved
  by_cases reserved : id.isReserved = true
  · by_cases taken : before.faces.contains id = true
    · simp [reserved, taken, Except.toOption, sound]
    · simp only [reserved, taken, Bool.not_true, Bool.false_eq_true, if_false, Except.toOption,
        Option.getD_some]
      refine sound.of_faces rfl rfl ?_ ?_
      · intro other present
        rw [FaceTable.contains_iff] at present ⊢
        exact FaceTable.mem_ids_place.mpr (Or.inr present)
      · intro other present
        rw [FaceTable.contains_iff] at present
        rcases FaceTable.mem_ids_place.mp present with new | old
        · rw [new]
          exact (Bool.and_eq_true_iff.mp reserved).1
        · exact sound.valid (FaceTable.contains_iff.mpr old)
  · simp [reserved, Except.toOption, sound]

theorem forget_spec {entry rest : PitEntry} {face : FaceId} {faces : FaceTable}
    (left : entry.forget face = some rest) (timed : entry.Timed) (recorded : entry.Recorded faces) :
    rest.Timed ∧ rest.Recorded (faces.remove face) := by
  unfold PitEntry.forget at left
  split at left
  · cases left
  · rename_i others
    cases left
    have kept : ∀ {other : FaceId}, faces.contains other = true → (other != face) = true →
        (faces.remove face).contains other = true := by
      intro other present different
      rw [FaceTable.contains_remove, present, different]
      rfl
    refine ⟨⟨fun armed member => timed.covered armed (List.mem_filter.mp member).1, fun idle => ?_⟩,
      fun member => recorded.named (List.mem_filter.mp member).1, fun member => ?_, fun member => ?_⟩
    · obtain ⟨waited, armed⟩ := timed.awaited idle
      refine ⟨fun nothing => others ?_, armed⟩
      rw [List.isEmpty_eq_false_iff.mpr waited, show (entry.deleteInRecord face).inRecords = [] from nothing]
      rfl
    · obtain ⟨old, different⟩ := List.mem_filter.mp member
      exact kept (recorded.inFaces old) different
    · obtain ⟨old, different⟩ := List.mem_filter.mp member
      exact kept (recorded.outFaces old) different

theorem Sound.removeFace (sound : Sound before) {face : FaceId}
    (removed : before.removeFace face = .ok after) : Sound after := by
  obtain ⟨matched, steady, _, entries⟩ := removeFace_spec sound.matched removed
  have faces : after.faces = before.faces.remove face := steady.faces
  have left : ∀ {id : PitId} {entry : PitEntry}, after.pit.get? id = some entry →
      entry.Timed ∧ entry.Recorded after.faces := by
    intro id entry found
    rw [entries] at found
    obtain ⟨old, here, rest⟩ := Option.bind_eq_some_iff.mp found
    rw [faces]
    exact forget_spec rest (sound.timed here) (sound.recorded here)
  refine ⟨matched, ?_, fun found => (left found).1, fun found => (left found).2⟩
  intro other present
  rw [faces, FaceTable.contains_remove] at present
  exact sound.valid (Bool.and_eq_true_iff.mp present).2

theorem Sound.entryFor (sound : Sound before) (name : Name) :
    (before.entryFor name).Recorded before.faces := by
  unfold Forwarder.entryFor
  cases found : before.pit.get? (before.pit.insert name).1 with
  | none => exact PitEntry.Recorded.bare _ _ _
  | some entry => exact sound.recorded found

theorem Sound.receiveInterest (sound : Sound before) (face : FaceId) (interest : Interest) :
    Sound (before.receiveInterest face interest) := by
  rcases before.receiveInterest_cases face interest with
    ⟨change, same⟩ | ⟨kept, judged⟩
  · rw [same]
    exact sound.of_same rfl rfl rfl
  · obtain ⟨records, upkept⟩ :=
      upkept_receiveInterest sound.matched (sound.entryFor interest.name) judged
    exact sound.of_upkept upkept

theorem Sound.satisfyAll (sound : Sound before) (source : FaceId) (data : Data)
    (ids : List PitId) : Sound (ids.foldl (satisfy source data) before) := by
  obtain ⟨matched, steady, others, _, settled⟩ := satisfyAll_spec sound.matched source data ids
  have inOrder : ∀ {id : PitId} {entry : PitEntry},
      (ids.foldl (satisfy source data) before).pit.get? id = some entry →
      entry.Timed ∧ entry.Recorded before.faces := by
    intro id entry found
    -- The entries that the Data answers are bare now, and no other has changed.
    by_cases member : id ∈ ids
    · cases here : before.pit.get? id with
      | some old =>
        obtain ⟨timer, _, _, found'⟩ := settled id member old here
        rw [found] at found'
        cases found'
        exact ⟨.settled _ _ _, (sound.recorded here).settled source timer⟩
      | none =>
        rw [others id fun _ => here, here] at found
        cases found
    · rw [others id fun listed => absurd listed member] at found
      exact ⟨sound.timed found, sound.recorded found⟩
  refine ⟨matched, ?_, fun found => (inOrder found).1, ?_⟩
  · rw [steady.faces]
    exact sound.valid
  · rw [steady.faces]
    exact fun found => (inOrder found).2

theorem Sound.receiveData (sound : Sound before) (face : FaceId) (data : Data) :
    Sound (before.receiveData face data) := by
  rcases before.receiveData_cases face data with
    ⟨contentStore, counters, same, _⟩ | ⟨contentStore, counters, _, _, _, same⟩
  · rw [same]
    exact sound.of_same rfl rfl rfl
  · have cached : Sound { before with contentStore, counters } := sound.of_same rfl rfl rfl
    have settled := cached.satisfyAll face { data with incomingFace := some face }
      (before.pit.dataMatches data.name)
    rw [same]
    obtain ⟨outbox, counted, sent, _⟩ := ((before.pit.dataMatches data.name).foldl
      (satisfy face { data with incomingFace := some face })
      { before with contentStore, counters }).sendAll_spec { data with incomingFace := some face }
      ((before.waitingFaces (before.pit.dataMatches data.name)).filter (· != face))
    rw [sent]
    exact settled.of_same rfl rfl rfl

theorem Sound.upkept (sound : Sound before) {id : PitId} {entry : PitEntry}
    (found : before.pit.get? id = some entry) : Upkept id entry.inRecords before before :=
  ⟨.refl id before, sound.matched, entry, found, rfl, sound.timed found, sound.recorded found⟩

theorem Sound.sendInterest (sound : Sound before) (id : PitId) (face : FaceId)
    (hint : Option String) (newNonce : Bool) :
    Sound (before.sendInterest id face hint newNonce) := by
  cases found : before.pit.get? id with
  | some entry => exact sound.of_upkept ((sound.upkept found).sendInterest face hint newNonce)
  | none =>
    simp only [Forwarder.sendInterest, found]
    exact sound

theorem Sound.reject (sound : Sound before) (id : PitId) : Sound (before.reject id) := by
  cases found : before.pit.get? id with
  | some entry => exact sound.of_upkept (sound.upkept found).reject
  | none =>
    simp only [Forwarder.reject, found]
    exact sound

theorem Sound.popped (sound : Sound before) {limit : Instant} {timer : Timer TimerEvent}
    {rest : Timers TimerEvent} (popped : before.timers.popDue? limit = some (timer, rest)) :
    Sound ({ before with timers := rest }.fire timer.payload) := by
  have ended := ended_fire sound.matched popped
  have kept : ∀ {other : PitId} {entry : PitEntry},
      ({ before with timers := rest }.fire timer.payload).pit.get? other = some entry →
      before.pit.get? other = some entry := by
    intro other entry found
    have different : other ≠ timer.payload.entry := fun same => by
      rw [same, ended.gone] at found
      cases found
    rw [ended.change.entries other different] at found
    exact found
  refine ⟨ended.matched, ?_, fun found => sound.timed (kept found), ?_⟩
  · rw [ended.change.faces]
    exact sound.valid
  · rw [ended.change.faces]
    exact fun found => sound.recorded (kept found)

theorem Sound.passTime (sound : Sound before) (time : Instant) :
    Sound (before.act (.passTime time)) := by
  simp only [act]
  split
  · exact sound
  · exact ⟨⟨sound.matched.filed, sound.matched.numbered, sound.matched.live, sound.matched.armed⟩,
      sound.valid, sound.timed, sound.recorded⟩

/-- Nothing that happens to a forwarder brings it out of order. -/
theorem Sound.act (sound : Sound before) (action : Action) : Sound (before.act action) := by
  cases action with
  | addFace face => exact sound.addFace face
  | addReservedFace id face => exact sound.addReservedFace id face
  | removeFace face =>
    show Sound ((before.removeFace face).toOption.getD before)
    cases removed : before.removeFace face with
    | ok after => exact sound.removeFace removed
    | error error => exact sound
  | changeRoutes change => exact sound.of_same rfl rfl rfl
  | changeStrategies change => exact sound.of_same rfl rfl rfl
  | receiveInterest face interest => exact sound.receiveInterest face interest
  | receiveData face data => exact sound.receiveData face data
  | receiveUnsolicited face data =>
    show Sound (before.receiveUnsolicited face data)
    unfold receiveUnsolicited
    dsimp only
    split
    · exact sound.of_same rfl rfl rfl
    · exact sound.of_same rfl rfl rfl
  | sendInterest id face hint newNonce => exact sound.sendInterest id face hint newNonce
  | reject id => exact sound.reject id
  | sendData data face =>
    show Sound (before.sendData data face)
    rw [sendData_eq]
    exact sound.of_same rfl rfl rfl
  | collect face wanted => exact sound.of_same rfl rfl rfl
  | fireNext limit =>
    simp only [Forwarder.act]
    split
    · exact sound
    · rename_i timer rest popped
      exact sound.popped popped
  | passTime time => exact sound.passTime time

theorem Sound.run (sound : Sound before) (actions : List Action) : Sound (before.run actions) := by
  induction actions generalizing before with
  | nil => exact sound
  | cons action rest ih => exact ih (sound.act action)

variable {settings : Settings} {contentStore : ContentStore} {counters : Counters}
  {nonces : NonceSource} {start forwarder : Forwarder}

theorem Reach.sound (reach : Reach start forwarder)
    (made : withParts settings contentStore counters nonces = .ok start) : Sound forwarder := by
  induction reach with
  | start => exact sound_start made
  | next action _ ih => exact ih.act action

end Forwarder

end NamedData
