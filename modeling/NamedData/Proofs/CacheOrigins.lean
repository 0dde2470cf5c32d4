import NamedData.Proofs.CacheHits

namespace NamedData

namespace Forwarder

variable {action : Action} {forwarder start : Forwarder} {history : List Action} {kept other : Data}
  {source : FaceId}

/-- An action passes Data to the store, and the store accepts it: it counts one more
insertion. -/
def Admits (forwarder : Forwarder) (action : Action) (kept : Data) : Prop :=
  (∃ source, Brings source kept action) ∧
    (forwarder.act action).contentStore.insertions = forwarder.contentStore.insertions + 1

/-- Why Data may be kept: it comes from a local face, or it comes in while an entry waits whose
name is a prefix of its own. -/
inductive Wanted (forwarder : Forwarder) (kept : Data) : Action → Prop
  | onHost {action : Action} {source : FaceId} (brings : Brings source kept action)
      (isLocal : forwarder.faces.isLocal source = true) : Wanted forwarder kept action
  | awaited {source : FaceId} {data : Data} {id : PitId} {entry : PitEntry}
      (brings : Brings source kept (.receiveData source data))
      (found : forwarder.pit.get? id = some entry)
      (under : entry.name.isPrefixOf kept.name = true) :
      Wanted forwarder kept (.receiveData source data)

theorem Brings.eq {source' : FaceId} (brings : Brings source kept action)
    (brings' : Brings source' other action) : other = kept := by
  cases brings <;> cases brings' <;> rfl

theorem Caches.brings (caches : forwarder.Caches action kept) : ∃ source, Brings source kept action := by
  cases caches with
  | answer => exact ⟨_, .answer _⟩
  | unasked => exact ⟨_, .unasked _⟩

/-- What is taken into the store is wanted. -/
theorem Caches.wanted (caches : forwarder.Caches action kept) (filed : forwarder.pit.Filed) :
    forwarder.Wanted kept action := by
  cases caches with
  | @answer source data accepts wanted =>
    rcases wanted with awaited | isLocal
    · obtain ⟨id, member⟩ := List.exists_mem_of_ne_nil _ awaited
      obtain ⟨under, entry, found⟩ := filed.mem_dataMatches.mp member
      rw [← filed.named found] at under
      exact .awaited (.answer data) found under
    · exact .onHost (.answer data) isLocal
  | unasked onHost => exact .onHost (.unasked kept) onHost

/-- A store with room accepts just what is taken into it. -/
theorem admits_iff (filed : forwarder.pit.Filed) (room : forwarder.contentStore.capacity ≠ 0) :
    forwarder.Admits action kept ↔ forwarder.Caches action kept := by
  rcases stores_act filed action with ⟨taken, unsolicited, caches, same⟩ | ⟨idle, same⟩
  · have counted : (forwarder.act action).contentStore.insertions =
        forwarder.contentStore.insertions + 1 := by
      rw [same, ContentStore.insert, if_neg room]
    obtain ⟨source, brings⟩ := caches.brings
    constructor
    · rintro ⟨⟨_, brings'⟩, _⟩
      rw [brings.eq brings']
      exact caches
    · exact fun caches' => ⟨caches'.brings, counted⟩
  · refine iff_of_false (fun admits => ?_) (idle kept)
    have counted := admits.2
    rw [same] at counted
    omega

theorem capacity_act (filed : forwarder.pit.Filed) (action : Action) :
    (forwarder.act action).contentStore.capacity = forwarder.contentStore.capacity := by
  rcases stores_act filed action with ⟨_, unsolicited, _, same⟩ | ⟨_, same⟩
  · rw [same, ContentStore.capacity_insert]
  · rw [same]

theorem Sound.capacity_run (sound : Sound forwarder) (actions : List Action) :
    (forwarder.run actions).contentStore.capacity = forwarder.contentStore.capacity := by
  induction actions generalizing forwarder with
  | nil => rfl
  | cons action rest ih =>
    have later := ih (sound.act action)
    exact later.trans (capacity_act sound.matched.filed action)

variable {settings : Settings} {capacity : Nat} {counters : Counters} {nonces : NonceSource}

/-- What lies in the store under a name is the Data of that name that was accepted last, just as
it was passed in but for the face that it came in on. It came from a face that was local then,
or while an entry waited for it. -/
theorem cache_holds_what_was_wanted
    (made : withParts settings (.empty capacity) counters nonces = .ok start)
    (history : List Action) {name : Name} {cached : CachedData}
    (found : (start.run history).contentStore.cached[name]? = some cached) :
    cached.data.name = name ∧ ∃ earlier action later, history = earlier ++ action :: later ∧
      (start.run earlier).Admits action cached.data ∧
      (start.run earlier).Wanted cached.data action ∧
      ∀ between next after newer, later = between ++ next :: after →
        (start.run (earlier ++ action :: between)).Admits next newer → newer.name ≠ name := by
  have sound := sound_start made
  have empty : start.contentStore.cached = ∅ := by
    obtain ⟨_, _, rfl⟩ := eq_of_withParts made
    rfl
  have stored := sound.stored empty history found
  obtain ⟨moment, last, _⟩ := stored.last
  obtain ⟨earlier, action, later, split, caches, none⟩ := Latest.exists_split last
  have filed (actions : List Action) : (start.run actions).pit.Filed :=
    (sound.run actions).matched.filed
  have room (actions : List Action) : (start.run actions).contentStore.capacity ≠ 0 := by
    rw [sound.capacity_run, ← sound.capacity_run history]
    exact stored.room
  refine ⟨stored.named, earlier, action, later, split, (admits_iff (filed _) (room _)).mpr caches,
    caches.wanted (filed _), fun between next after newer split' admits => ?_⟩
  have caches' := (admits_iff (filed _) (room _)).mp admits
  rw [← stored.named]
  exact none between next after newer split' caches'

/-- The one that waits has been answered. -/
def oneIsAnswered : List Action :=
  oneWaits ++ [.receiveData ⟨257⟩ { name := ⟨[[97], [98]]⟩, content := [1] }]

theorem cache_holds_what_was_wanted_by_one :
    ∃ cached : CachedData, cached.data.content = [1] ∧
      (usual.run oneIsAnswered).contentStore.cached[(⟨[[97], [98]]⟩ : Name)]? = some cached ∧
      ∃ earlier action later, oneIsAnswered = earlier ++ action :: later ∧
        (usual.run earlier).Admits action cached.data ∧
        (usual.run earlier).Wanted cached.data action := by
  have holds : ((usual.run oneIsAnswered).contentStore.cached[(⟨[[97], [98]]⟩ : Name)]?).map
      (·.data.content) = some [1] := by
    rw [run_eq_evaluate]
    decide +kernel
  obtain ⟨cached, found, content⟩ := Option.map_eq_some_iff.mp holds
  obtain ⟨_, earlier, action, later, split, admits, wanted, _⟩ :=
    cache_holds_what_was_wanted ofSettings_usual oneIsAnswered found
  exact ⟨cached, content, found, earlier, action, later, split, admits, wanted⟩

end Forwarder

end NamedData
