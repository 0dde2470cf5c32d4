import NamedData.Proofs.Soundness

namespace NamedData

namespace Forwarder

/-- A face has asked, in some entry, for Data of this name and has not stopped
waiting. -/
def Awaits (forwarder : Forwarder) (face : FaceId) (name : Name) : Prop :=
  ∃ id entry record, forwarder.pit.get? id = some entry ∧ id.name.isPrefixOf name = true ∧
    record ∈ entry.inRecords ∧ record.face = face ∧ forwarder.now < record.expiry

/-- Data may not be handed to this face: names under `/localhost` stay on the
host. -/
def Barred (forwarder : Forwarder) (face : FaceId) (name : Name) : Prop :=
  forwarder.faces.isLocal face = false ∧ Name.localhost.isPrefixOf name = true

/-- What Data from a face does: it goes once to each face that waits for it, the
entries it answers are settled, and nothing else is sent or changed. -/
structure FannedOut (source : FaceId) (data : Data) (before after : Forwarder) : Prop where
  sent : ∃ downstreams : List FaceId, downstreams.Nodup ∧
    (∀ face, face ∈ downstreams ↔
      before.Awaits face data.name ∧ face ≠ source ∧ ¬ before.Barred face data.name) ∧
    after.outbox.sent = before.outbox.sent ++
      downstreams.map fun face => (face, .data { data with incomingFace := none })
  settled : ∀ id entry, before.pit.get? id = some entry → id.name.isPrefixOf data.name = true →
    after.SettledAt id entry source data (before.now + before.settings.stragglerDelay)
  others : ∀ id, id.name.isPrefixOf data.name = false → after.pit.get? id = before.pit.get? id
  otherTimers : ∀ (timer : TimerId) (event : TimerEvent),
    event.entry.name.isPrefixOf data.name = false →
    (after.timers.running[timer]? = some event ↔ before.timers.running[timer]? = some event)
  gone : ∀ id, before.pit.get? id = none → after.pit.get? id = none
  unasked : (∀ id entry, before.pit.get? id = some entry → id.name.isPrefixOf data.name = false) →
    after.outbox = before.outbox ∧ after.pit = before.pit

variable {forwarder : Forwarder} {source : FaceId} {data : Data}

theorem awaits_iff (filed : forwarder.pit.Filed) {face : FaceId} {name : Name} :
    forwarder.Awaits face name ↔ face ∈ forwarder.waitingFaces (forwarder.pit.dataMatches name) := by
  rw [mem_waitingFaces]
  constructor
  · rintro ⟨id, entry, record, found, under, member, same, unexpired⟩
    exact ⟨id, filed.mem_dataMatches.mpr ⟨under, entry, found⟩, entry, found, record, member,
      unexpired, same⟩
  · rintro ⟨id, listed, entry, found, record, member, unexpired, same⟩
    exact ⟨id, entry, record, found, (filed.mem_dataMatches.mp listed).1, member, same, unexpired⟩

/-- A face that waits is there, so that only its scope can keep Data from it. -/
theorem Sound.maySend_iff (sound : Sound forwarder) {face : FaceId}
    (awaits : forwarder.Awaits face data.name) :
    forwarder.maySend data face = true ↔ ¬ forwarder.Barred face data.name := by
  obtain ⟨id, entry, record, found, _, member, same, _⟩ := awaits
  have present : forwarder.faces.contains face = true := by
    rw [← same]
    exact (sound.recorded found).inFaces member
  have reachable : forwarder.isReachable face = true :=
    Bool.and_eq_true_iff.mpr ⟨sound.valid present, present⟩
  rw [maySend, reachable, Bool.true_and, Barred]
  cases forwarder.faces.isLocal face <;> cases Name.localhost.isPrefixOf data.name <;> decide

theorem dataMatches_eq_nil (filed : forwarder.pit.Filed) {name : Name} :
    forwarder.pit.dataMatches name = [] ↔
      ∀ id entry, forwarder.pit.get? id = some entry → id.name.isPrefixOf name = false := by
  rw [List.eq_nil_iff_forall_not_mem]
  constructor
  · intro nothing id entry found
    refine Bool.eq_false_iff.mpr fun under => nothing id (filed.mem_dataMatches.mpr ⟨under, entry, found⟩)
  · intro unasked id listed
    obtain ⟨under, entry, found⟩ := filed.mem_dataMatches.mp listed
    rw [unasked id entry found] at under
    cases under

theorem fannedOut_of_unasked (filed : forwarder.pit.Filed)
    (nothing : forwarder.pit.dataMatches data.name = []) {after : Forwarder}
    (outbox : after.outbox = forwarder.outbox) (pit : after.pit = forwarder.pit)
    (timers : after.timers = forwarder.timers) : FannedOut source data forwarder after := by
  have unasked := (dataMatches_eq_nil filed).mp nothing
  refine ⟨⟨[], List.nodup_nil, ?_, ?_⟩, ?_, ?_, ?_, ?_, fun _ => ⟨outbox, pit⟩⟩
  · intro face
    rw [awaits_iff filed, nothing]
    constructor
    · intro impossible
      cases impossible
    · rintro ⟨impossible, _⟩
      cases impossible
  · rw [outbox, List.map_nil, List.append_nil]
  · intro id entry found under
    rw [unasked id entry found] at under
    cases under
  · exact fun id _ => by rw [pit]
  · exact fun _ _ _ => by rw [timers]
  · exact fun id missing => by rw [pit, missing]

theorem Sound.fannedOut (sound : Sound forwarder) (source : FaceId) (data : Data)
    (present : forwarder.faces.contains source = true)
    (inScope : ¬ forwarder.Barred source data.name) :
    FannedOut source data forwarder (forwarder.receiveData source data) := by
  have filed := sound.matched.filed
  rcases forwarder.receiveData_cases source data with
    ⟨contentStore, counters, same, nothing | absent | barred⟩ |
      ⟨contentStore, counters, asked, _, _, same⟩
  · rw [same]
    exact fannedOut_of_unasked filed nothing rfl rfl rfl
  · rw [absent] at present
    cases present
  · exact absurd barred inScope
  · obtain ⟨ids, isIds⟩ : ∃ ids, ids = forwarder.pit.dataMatches data.name := ⟨_, rfl⟩
    obtain ⟨noted, isNoted⟩ : ∃ noted, noted = { data with incomingFace := some source } := ⟨_, rfl⟩
    rw [← isIds, ← isNoted] at same
    have cached : Sound { forwarder with contentStore, counters } := sound.of_same rfl rfl rfl
    obtain ⟨_, steady, others, timers, settled⟩ :=
      satisfyAll_spec cached.matched source noted ids
    have outboxes := outbox_satisfyAll source noted { forwarder with contentStore, counters } ids
    obtain ⟨all, isAll⟩ : ∃ all, all = ids.foldl (satisfy source noted)
      { forwarder with contentStore, counters } := ⟨_, rfl⟩
    rw [← isAll] at same steady others timers settled outboxes
    obtain ⟨outbox, counted, sends, sent⟩ := all.sendAll_spec noted
      ((forwarder.waitingFaces ids).filter (· != source))
    have listed : ∀ {id : PitId}, id ∈ ids ↔ id.name.isPrefixOf data.name = true ∧
        ∃ entry, forwarder.pit.get? id = some entry := by
      intro id
      rw [isIds]
      exact filed.mem_dataMatches
    -- Settling entries moves no face, so who may be sent to is as before.
    have allowed : all.maySend noted = forwarder.maySend data := by
      funext face
      rw [maySend, maySend, isReachable, isReachable, steady.faces, isNoted]
    rw [same, sends]
    have once : (forwarder.waitingFaces ids).Nodup := nodup_waitingFaces ids
    refine ⟨⟨_, (once.filter (· != source)).filter (all.maySend noted), ?_, ?_⟩, ?_, ?_, ?_, ?_, ?_⟩
    · intro face
      rw [allowed, List.mem_filter, List.mem_filter, isIds, ← awaits_iff filed, bne_iff_ne, and_assoc]
      refine and_congr_right fun awaits => and_congr_right fun _ => ?_
      exact sound.maySend_iff awaits
    · rw [sent, outboxes, isNoted]
    · intro id entry found under
      have due := settled id (listed.mpr ⟨under, entry, found⟩) entry found
      rw [isNoted] at due
      exact due
    · intro id apart
      refine others id fun member => ?_
      rw [(listed.mp member).1] at apart
      cases apart
    · intro timer event apart
      refine timers timer event fun member => ?_
      rw [(listed.mp member).1] at apart
      cases apart
    · intro id missing
      exact (others id fun _ => missing).trans missing
    · intro unasked
      exact absurd ((dataMatches_eq_nil filed).mpr unasked) asked

variable {settings : Settings} {contentStore : ContentStore} {counters : Counters}
  {nonces : NonceSource} {start : Forwarder}

/-- In every state that a forwarder comes to, Data that is in scope on the face
it comes in on fans out exactly. -/
theorem data_fans_out (made : withParts settings contentStore counters nonces = .ok start)
    (reach : Reach start forwarder) (source : FaceId) (data : Data)
    (present : forwarder.faces.contains source = true)
    (inScope : ¬ forwarder.Barred source data.name) :
    FannedOut source data forwarder (forwarder.receiveData source data) :=
  (reach.sound made).fannedOut source data present inScope

/-- Two faces wait for Data under two names, one of them under both. -/
def twoWait : List Action :=
  [.addFace { isLocal := false }, .addFace { isLocal := false }, .addFace { isLocal := true },
    .changeRoutes (·.addNextHop ⟨[[97]]⟩ { face := ⟨257⟩, cost := 1 }),
    .receiveInterest ⟨256⟩ { name := ⟨[[97]]⟩, nonce := 5 },
    .receiveInterest ⟨256⟩ { name := ⟨[[97], [98]]⟩, nonce := 6 },
    .receiveInterest ⟨258⟩ { name := ⟨[[97], [98]]⟩, nonce := 7 }]

theorem data_fans_out_to_two :
    sends (usual.run twoWait) (.receiveData ⟨257⟩ { name := ⟨[[97], [98]]⟩, content := [1] }) =
        [(⟨256⟩, .data { name := ⟨[[97], [98]]⟩, content := [1] }),
          (⟨258⟩, .data { name := ⟨[[97], [98]]⟩, content := [1] })] ∧
      FannedOut ⟨257⟩ { name := ⟨[[97], [98]]⟩, content := [1] } (usual.run twoWait)
        ((usual.run twoWait).receiveData ⟨257⟩ { name := ⟨[[97], [98]]⟩, content := [1] }) :=
  ⟨by decide, data_fans_out ofSettings_usual (Reach.start.run twoWait) _ _ (by decide)
    fun barred => absurd barred.2 (by decide)⟩

end Forwarder

end NamedData
