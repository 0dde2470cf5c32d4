import NamedData.Proofs.CacheLookup
import NamedData.Proofs.EntrySteps

namespace NamedData

namespace FaceTable

theorem find?_place_of_ne {id other : FaceId} (face : Face) {rows : List (FaceId × Face)}
    (different : other ≠ id) :
    (place id face rows).find? (·.1 == other) = rows.find? (·.1 == other) := by
  induction rows with
  | nil => simp [place, Ne.symm different]
  | cons first rest ih =>
    rw [place]
    split
    · rw [List.find?_cons, List.find?_cons, ih]
    · simp [Ne.symm different]

theorem isLocal_place_of_ne {id other : FaceId} (face : Face) {table : FaceTable}
    (different : other ≠ id) (added : Nat) :
    (⟨place id face table.faces, added⟩ : FaceTable).isLocal other = table.isLocal other := by
  simp only [isLocal, find?, find?_place_of_ne face different]

theorem isLocal_remove {table : FaceTable} {gone face : FaceId} (different : face ≠ gone) :
    (table.remove gone).isLocal face = table.isLocal face := by
  have same : (table.faces.filter (·.1 != gone)).find? (·.1 == face) =
      table.faces.find? (·.1 == face) := by
    rw [List.find?_filter]
    congr 1
    funext row
    by_cases here : row.1 = face
    · simp [here, different]
    · simp [here]
  simp only [isLocal, find?, remove, same]

/-- Every number in use was reserved or handed out. -/
def Bounded (table : FaceTable) : Prop :=
  ∀ {face : FaceId}, table.contains face = true →
    face.number < FaceId.lastReserved.number + 1 + table.added

theorem contains_place {id other : FaceId} {face : Face} {table : FaceTable} {added : Nat}
    (present : (⟨place id face table.faces, added⟩ : FaceTable).contains other = true) :
    other = id ∨ table.contains other = true := by
  rw [contains_iff] at present ⊢
  exact mem_ids_place.mp present

theorem Bounded.add {table : FaceTable} (bounded : table.Bounded) (face : Face) :
    (table.add face).2.Bounded := by
  intro other present
  show other.number < FaceId.lastReserved.number + 1 + (table.added + 1)
  rcases contains_place present with new | old
  · rw [new]
    exact Nat.lt_succ_self _
  · exact Nat.lt_succ_of_lt (bounded old)

/-- All numbers in use have 32 bits until the counter has run out of them. -/
theorem Bounded.number_lt {table : FaceTable} (bounded : table.Bounded)
    (roomy : table.added ≤ room) {face : FaceId} (present : table.contains face = true) :
    face.number < UInt32.size :=
  Nat.lt_of_lt_of_le (bounded present) (Nat.add_le_of_le_sub' (by decide) roomy)

theorem number_add {table : FaceTable} (roomy : table.added < room) (face : Face) :
    (table.add face).1.number = table.counter.toNat :=
  (UInt32.toNat_ofNat_of_lt (Nat.add_lt_of_lt_sub' roomy)).symm

theorem Bounded.addReserved {table after : FaceTable} (bounded : table.Bounded) {id : FaceId}
    {face : Face} (added : table.addReserved id face = .ok after) : after.Bounded := by
  unfold FaceTable.addReserved at added
  split at added
  · cases added
  · rename_i reserved
    split at added
    · cases added
    · cases added
      intro other present
      show other.number < FaceId.lastReserved.number + 1 + table.added
      rcases contains_place present with new | old
      · have fits : id.isValid = true ∧ id.number ≤ FaceId.lastReserved.number := by
          simpa [FaceId.isReserved] using reserved
        rw [new]
        omega
      · exact bounded old

/-- A face that stays keeps its side. -/
def Keeps (table after : FaceTable) : Prop :=
  ∀ {face : FaceId}, table.contains face = true → after.contains face = true →
    after.isLocal face = table.isLocal face

theorem Bounded.keeps_add {table : FaceTable} (bounded : table.Bounded) (face : Face) :
    table.Keeps (table.add face).2 := by
  intro other present _
  refine isLocal_place_of_ne face (fun same => ?_) _
  have bound := bounded present
  rw [same] at bound
  exact Nat.lt_irrefl _ bound

theorem keeps_addReserved {table after : FaceTable} {id : FaceId} {face : Face}
    (added : table.addReserved id face = .ok after) : table.Keeps after := by
  unfold FaceTable.addReserved at added
  split at added
  · cases added
  · split at added
    · cases added
    · rename_i absent
      cases added
      intro other present _
      refine isLocal_place_of_ne face (fun same => absent ?_) _
      rw [← same]
      exact present

theorem keeps_remove (table : FaceTable) (gone : FaceId) : table.Keeps (table.remove gone) := by
  intro face _ still
  rw [contains_remove] at still
  exact isLocal_remove (bne_iff_ne.mp (Bool.and_eq_true_iff.mp still).1)

end FaceTable

/-- Data that a store keeps. -/
def ContentStore.Holds (store : ContentStore) (data : Data) : Prop :=
  ∃ (name : Name) (cached : CachedData), store.cached[name]? = some cached ∧ cached.data = data

/-- Taking Data in adds no other Data. -/
theorem ContentStore.holds_insert {store : ContentStore} {new data : Data} {unsolicited : Bool}
    {now : Instant} (holds : (store.insert new unsolicited now).Holds data) :
    data = new ∨ store.Holds data := by
  obtain ⟨name, row, found, rfl⟩ := holds
  rcases ContentStore.new_or_old ⟨new, unsolicited, now⟩ found with ⟨_, rfl⟩ | old
  · exact Or.inl rfl
  · exact Or.inr ⟨name, row, old, rfl⟩

/-- A face is added, under a number past the reserved ones. -/
def Action.addsFace : Action → Bool
  | .addFace _ => true
  | _ => false

namespace Forwarder

variable {action : Action} {before after forwarder : Forwarder} {id : PitId}

/-- Data comes in on a face, in the form in which it is kept. -/
inductive Brings (source : FaceId) : Data → Action → Prop
  | answer (data : Data) :
      Brings source { data with incomingFace := some source } (.receiveData source data)
  | unasked (data : Data) : Brings source data (.receiveUnsolicited source data)

theorem Step.contentStore (step : Step action before after) :
    after.contentStore = before.contentStore ∨ ∃ source data unsolicited, Brings source data action ∧
      (Name.localhost.isPrefixOf data.name = true → before.faces.isLocal source = true) ∧
      after.contentStore = before.contentStore.insert data unsolicited before.now := by
  cases step with
  | @caches source data cause accepts =>
    subst cause
    refine Or.inr ⟨source, _, false, .answer data, fun under => ?_, rfl⟩
    exact Bool.not_eq_false _ ▸ fun outside => accepts.2 ⟨outside, under⟩
  | hoards cause onHost =>
    refine Or.inr ⟨_, _, true, ?_, fun _ => onHost, rfl⟩
    rcases cause with ⟨rfl, rfl⟩ | ⟨rfl, rfl⟩
    · exact .answer _
    · exact .unasked _
  | asks =>
    rw [emitInterest_eq]
    exact Or.inl rfl
  | answers =>
    rw [sendData_eq]
    exact Or.inl rfl
  | notes =>
    rw [noteDeadNonces_eq]
    exact Or.inl rfl
  | _ => exact Or.inl rfl

/-- Data that steps bring into the store came from the host if it has to stay there. -/
theorem Steps.holds (steps : Steps action before after) {data : Data}
    (holds : after.contentStore.Holds data) : before.contentStore.Holds data ∨
      ∃ source, Brings source data action ∧
        (Name.localhost.isPrefixOf data.name = true → before.faces.isLocal source = true) := by
  induction steps with
  | refl => exact Or.inl holds
  | tail earlier step ih =>
    rcases step.contentStore with same | ⟨source, kept, unsolicited, brings, onHost, same⟩
    · rw [same] at holds
      exact ih holds
    · rw [same] at holds
      rcases ContentStore.holds_insert holds with rfl | old
      · rw [(Steps.fixed earlier).1] at onHost
        exact Or.inr ⟨source, brings, onHost⟩
      · exact ih old

/-- No downstream from outside waits for what stays on the host. -/
def Inside (faces : FaceTable) (entry : PitEntry) : Prop :=
  Name.localhost.isPrefixOf entry.name = true → ∀ record ∈ entry.inRecords,
    faces.contains record.face = true → faces.isLocal record.face = true

theorem Inside.of_subset {faces : FaceTable} {entry fewer : PitEntry} (inside : Inside faces entry)
    (same : fewer.name = entry.name) (ins : fewer.inRecords ⊆ entry.inRecords) : Inside faces fewer :=
  fun under record member => inside (by rw [← same]; exact under) record (ins member)

theorem Inside.bare (faces : FaceTable) (id : PitId) (name : Name) : Inside faces { id, name } :=
  fun _ record member => by cases member

theorem Edit.inside {entry edited : PitEntry} (edit : Edit action forwarder entry edited)
    (inside : Inside forwarder.faces entry) : Inside forwarder.faces edited := by
  cases edit with
  | retimed => exact inside.of_subset rfl (List.Subset.refl _)
  | @joined source interest lifetime accepts mine =>
    intro under record member present
    rcases PitEntry.mem_putRecord member with new | old
    · rw [new]
      refine Bool.not_eq_false _ ▸ fun outside => accepts.2 ⟨outside, ?_⟩
      rw [← mine]
      exact under
    · exact inside under record old present
  | asked => exact inside.of_subset rfl (List.Subset.refl _)
  | cleared => exact inside.of_subset rfl (List.nil_subset _)
  | settled => exact inside.of_subset rfl (List.nil_subset _)
  | forgotten => exact inside.of_subset rfl fun _ member => (List.mem_filter.mp member).1

/-- The numbers of faces are in bounds, and entries keep inside what stays on the
host. -/
structure Hosted (forwarder : Forwarder) : Prop where
  bounded : forwarder.faces.Bounded
  inside : ∀ {id : PitId} {entry : PitEntry}, forwarder.pit.get? id = some entry →
    Inside forwarder.faces entry

theorem faces_begun (bounded : forwarder.faces.Bounded) (action : Action) :
    (forwarder.begun action).faces.Bounded ∧
      forwarder.faces.Keeps (forwarder.begun action).faces := by
  have still : forwarder.faces.Bounded ∧ forwarder.faces.Keeps forwarder.faces :=
    ⟨bounded, fun _ _ => rfl⟩
  cases action with
  | addFace face => exact ⟨bounded.add face, bounded.keeps_add face⟩
  | addReservedFace id face =>
    simp only [begun, act, addReservedFace]
    cases added : forwarder.faces.addReserved id face with
    | ok faces => exact ⟨bounded.addReserved added, FaceTable.keeps_addReserved added⟩
    | error => exact still
  | removeFace face =>
    simp only [begun]
    split
    · refine ⟨fun present => bounded ?_, FaceTable.keeps_remove _ face⟩
      rw [FaceTable.contains_remove] at present
      exact (Bool.and_eq_true_iff.mp present).2
    · exact still
  | fireNext =>
    simp only [begun]
    split <;> exact still
  | passTime =>
    simp only [begun, act]
    split <;> exact still
  | _ => exact still

theorem Hosted.act (hosted : forwarder.Hosted) (sound : Sound forwarder) (action : Action) :
    (forwarder.act action).Hosted := by
  have steps := act_steps sound.matched.filed action
  obtain ⟨bounded, keeps⟩ := faces_begun hosted.bounded action
  have faces := (Steps.fixed steps).1
  refine ⟨by rw [faces]; exact bounded, fun found => ?_⟩
  rw [faces]
  refine Steps.entries steps (filed_begun sound.matched.filed action) (Inside.bare _) ?_ ?_ found
  · intro here entry edited same edit inside
    rw [← same] at inside ⊢
    exact edit.inside inside
  · intro id entry old under record member present
    rw [pit_begun] at old
    have was := (sound.recorded old).inFaces member
    rw [keeps was present]
    exact hosted.inside old under record member was

theorem Sound.hosted_run (sound : Sound forwarder) (hosted : forwarder.Hosted)
    (actions : List Action) : (forwarder.run actions).Hosted := by
  induction actions generalizing forwarder with
  | nil => exact hosted
  | cons action rest ih => exact ih (sound.act action) (hosted.act sound action)

theorem added_act (filed : forwarder.pit.Filed) (action : Action) :
    (forwarder.act action).faces.added =
      forwarder.faces.added + if action.addsFace then 1 else 0 := by
  rw [(Steps.fixed (act_steps filed action)).1]
  cases action with
  | addReservedFace id face =>
    simp only [begun, act, addReservedFace, FaceTable.addReserved]
    split
    · rename_i added
      split at added
      · cases added
      · split at added <;> cases added
        rfl
    · rfl
  | removeFace face =>
    simp only [begun]
    split <;> rfl
  | fireNext =>
    simp only [begun]
    split <;> rfl
  | passTime =>
    simp only [begun, act]
    split <;> rfl
  | _ => rfl

theorem Sound.added_run (sound : Sound forwarder) (actions : List Action) :
    (forwarder.run actions).faces.added =
      forwarder.faces.added + actions.countP (·.addsFace) := by
  induction actions generalizing forwarder with
  | nil => rfl
  | cons action rest ih =>
    refine (ih (sound.act action)).trans ?_
    rw [added_act sound.matched.filed, List.countP_cons]
    omega

/-- No action that changes the faces sends anything. -/
theorem faces_of_sends {out : FaceId × Packet} (sent : out ∈ forwarder.sends action) :
    (forwarder.begun action).faces = forwarder.faces := by
  by_cases hands : HandsOut action
  · cases hands <;> rfl
  · rw [sends_eq_nil hands] at sent
    cases sent

theorem Sound.onHost_of_sends (sound : Sound forwarder) {face : FaceId} {packet : Packet}
    (sent : (face, packet) ∈ forwarder.sends action)
    (under : Name.localhost.isPrefixOf packet.name = true) :
    forwarder.faces.isLocal face = true := by
  have filed := sound.matched.filed
  obtain ⟨here, next, steps, gives, _⟩ := gives_of_sends filed sent
  rw [← faces_of_sends sent, ← (Steps.fixed steps).1]
  cases gives with
  | @interest id entry face record hint newNonce found _ inScope spoken =>
    have same : record.interest.name = entry.name := sound.named steps found (speaker?_mem spoken)
    have inside : Name.localhost.isPrefixOf entry.name = true := by
      rw [← same, ← name_outgoing record.interest newNonce]
      exact under
    unfold violatesScope at inScope
    cases onHost : here.faces.isLocal face with
    | true => rfl
    | false =>
      rw [onHost, inside] at inScope
      cases inScope
  | @data data face allowed =>
    have inside : Name.localhost.isPrefixOf data.name = true := under
    have free := (Bool.and_eq_true_iff.mp allowed).2
    rw [inside] at free
    simpa using free

/-- An action that takes Data in does not change the faces before it. -/
theorem faces_of_brings {source : FaceId} {data : Data} (brings : Brings source data action) :
    (forwarder.begun action).faces = forwarder.faces := by
  cases brings <;> rfl

theorem Brings.source_eq {source other : FaceId} {data data' : Data}
    (brings : Brings source data action) (brings' : Brings other data' action) :
    other = source ∧ data'.name = data.name := by
  cases brings <;> cases brings' <;> exact ⟨rfl, rfl⟩

/-- Data that has to stay on the host and comes in from outside leaves the store
as it is. -/
theorem Steps.contentStore (steps : Steps action before after) {source : FaceId} {data : Data}
    (brings : Brings source data action) (under : Name.localhost.isPrefixOf data.name = true)
    (outside : before.faces.isLocal source = false) :
    after.contentStore = before.contentStore := by
  induction steps with
  | refl => rfl
  | tail earlier step ih =>
    rcases step.contentStore with same | ⟨other, kept, _, brings', onHost, _⟩
    · exact same.trans ih
    · obtain ⟨rfl, named⟩ := brings.source_eq brings'
      rw [(Steps.fixed earlier).1, outside, named] at onHost
      exact absurd (onHost under) Bool.false_ne_true

theorem contentStore_of_outside (filed : forwarder.pit.Filed) {source : FaceId} {data : Data}
    (brings : Brings source data action) (under : Name.localhost.isPrefixOf data.name = true)
    (outside : forwarder.faces.isLocal source = false) :
    (forwarder.act action).contentStore = forwarder.contentStore := by
  rw [← faces_of_brings brings] at outside
  have same := Steps.contentStore (act_steps filed action) brings under outside
  rw [contentStore_begun] at same
  exact same

theorem Sound.holds_run (sound : Sound forwarder) (actions : List Action) {data : Data}
    (holds : (forwarder.run actions).contentStore.Holds data)
    (under : Name.localhost.isPrefixOf data.name = true) :
    forwarder.contentStore.Holds data ∨ ∃ earlier action later source,
      actions = earlier ++ action :: later ∧ Brings source data action ∧
      (forwarder.run earlier).faces.isLocal source = true := by
  induction actions generalizing forwarder with
  | nil => exact Or.inl holds
  | cons first rest ih =>
    rcases ih (sound.act first) holds with here | ⟨earlier, action, later, source, same, brings, onHost⟩
    · rcases Steps.holds (act_steps sound.matched.filed first) here with old | ⟨source, brings, onHost⟩
      · rw [contentStore_begun] at old
        exact Or.inl old
      · rw [faces_of_brings brings] at onHost
        exact Or.inr ⟨[], first, rest, source, rfl, brings, onHost under⟩
    · exact Or.inr ⟨first :: earlier, action, later, source, by rw [same]; rfl, brings, onHost⟩

variable {settings : Settings} {contentStore : ContentStore} {counters : Counters}
  {nonces : NonceSource} {start : Forwarder}

theorem hosted_start (made : withParts settings contentStore counters nonces = .ok start) :
    start.Hosted := by
  obtain ⟨_, _, rfl⟩ := eq_of_withParts made
  refine ⟨fun present => (by cases present), fun {id _} found => ?_⟩
  cases (Pit.get?_empty id).symm.trans found

theorem added_start (made : withParts settings contentStore counters nonces = .ok start) :
    start.faces.added = 0 := by
  obtain ⟨_, _, rfl⟩ := eq_of_withParts made
  rfl

/-- Faces are told apart by numbers of 32 bits. In a history that adds fewer faces
than there are such numbers past the reserved ones, each number in use has 32 bits,
and the next is the one that a counter of 32 bits holds. -/
theorem numbers_fit (made : withParts settings contentStore counters nonces = .ok start)
    {history : List Action} (roomy : history.countP (·.addsFace) < FaceTable.room) :
    (∀ {face : FaceId}, (start.run history).faces.contains face = true →
      face.number < UInt32.size) ∧
    ∀ face : Face, ((start.run history).addFace face).1.number =
      (start.run history).faces.counter.toNat := by
  have begins := sound_start made
  have hosted := begins.hosted_run (hosted_start made) history
  have added : (start.run history).faces.added < FaceTable.room := by
    rw [begins.added_run history, added_start made, Nat.zero_add]
    exact roomy
  exact ⟨FaceTable.Bounded.number_lt hosted.bounded (Nat.le_of_lt added), FaceTable.number_add added⟩

/-- Whatever happens to a forwarder, what is under `/localhost` stays on the host.
It is sent to local faces only and waited for by local faces only, and Data comes
into the store from local faces only. -/
theorem localhost_stays_on_host (made : withParts settings contentStore counters nonces = .ok start)
    (history : List Action) :
    (∀ {action : Action} {face : FaceId} {packet : Packet},
      (face, packet) ∈ (start.run history).sends action →
      Name.localhost.isPrefixOf packet.name = true →
      (start.run history).faces.isLocal face = true) ∧
    (∀ {id : PitId} {entry : PitEntry} {record : InRecord},
      (start.run history).pit.get? id = some entry → record ∈ entry.inRecords →
      Name.localhost.isPrefixOf entry.name = true →
      (start.run history).faces.isLocal record.face = true) ∧
    (∀ {action : Action} {source : FaceId} {data : Data}, Brings source data action →
      Name.localhost.isPrefixOf data.name = true →
      (start.run history).faces.isLocal source = false →
      ((start.run history).act action).contentStore = (start.run history).contentStore) ∧
    ∀ {data : Data}, (start.run history).contentStore.Holds data →
      Name.localhost.isPrefixOf data.name = true →
      start.contentStore.Holds data ∨ ∃ earlier action later source,
        history = earlier ++ action :: later ∧ Brings source data action ∧
        (start.run earlier).faces.isLocal source = true := by
  have begins := sound_start made
  have sound : Sound (start.run history) := begins.run history
  have hosted := begins.hosted_run (hosted_start made) history
  refine ⟨sound.onHost_of_sends, ?_, contentStore_of_outside sound.matched.filed,
    begins.holds_run history⟩
  intro id entry record found member under
  exact hosted.inside found under record member ((sound.recorded found).inFaces member)

/-- A local face has published Data that has to stay on the host. -/
def hostPublishes : List Action :=
  [.addFace { isLocal := true }, .addFace { isLocal := false },
    .receiveData ⟨256⟩ { name := Name.localhost, content := [1] }]

theorem localhost_stays_on_host_when_cached :
    (usual.run hostPublishes).sends (.receiveInterest ⟨257⟩ { name := Name.root, nonce := 5 }) = [] ∧
      (⟨256⟩, .data { name := Name.localhost, content := [1] }) ∈ (usual.run hostPublishes).sends
        (.receiveInterest ⟨256⟩ { name := Name.root, nonce := 6 }) ∧
      (usual.run hostPublishes).faces.isLocal ⟨256⟩ = true := by
  have served : (⟨256⟩, .data { name := Name.localhost, content := [1] }) ∈
      (usual.run hostPublishes).sends
        (.receiveInterest ⟨256⟩ { name := Name.root, nonce := 6 }) := by decide
  exact ⟨by decide, served,
    (localhost_stays_on_host ofSettings_usual hostPublishes).1 served (by decide)⟩

end Forwarder

end NamedData
