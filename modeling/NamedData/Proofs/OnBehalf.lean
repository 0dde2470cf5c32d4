import NamedData.Proofs.Relaying
import NamedData.Proofs.Strategies

namespace NamedData

namespace Forwarder

variable {forwarder start : Forwarder} {source face : FaceId} {interest request : Interest}
  {history : List Action} {id : PitId} {record : InRecord} {original : Interest}

/-- An Interest goes out of a face on behalf of a downstream: the one other than the face
that was renewed last. Some downstream other than the face still waits then. The one that
is spoken for waits as well, unless it is the face itself that has just asked, or the
Interest that goes out lasts no time. -/
structure OnBehalf (forwarder : Forwarder) (entry : PitEntry) (source face : FaceId)
    (request : Interest) (picked : InRecord) : Prop where
  apart : picked.face ≠ face
  speaks : Speaks face entry.inRecords picked
  copy : ∃ hint, request = { picked.interest with incomingFace := none, targetHint := hint }
  awaited : ∃ record ∈ entry.inRecords, record.face ≠ face ∧ forwarder.now < record.expiry
  waits : face ≠ source → forwarder.lifetimeOf picked.interest ≠ Duration.zero →
    forwarder.now < picked.expiry

/-- A downstream that was renewed just now waits, unless its Interest lasts no time. -/
theorem Stems.waits (stems : Stems start history id record original) (sound : Sound start)
    {later : Instant} (room : (start.run history).now < later)
    (renewed : (start.run history).now ≤ record.renewed)
    (lasts : (start.run history).lifetimeOf record.interest ≠ Duration.zero) :
    (start.run history).now < record.expiry := by
  have past : record.renewed ≤ (start.run history).now := Latest.le_now stems.last sound
  have same : record.renewed = (start.run history).now :=
    Duration.ext (Nat.le_antisymm past renewed)
  by_contra ended
  refine lasts (Duration.eq_zero_of_add_le room ?_)
  have lifetime : (start.run history).lifetimeOf record.interest =
      (start.run history).lifetimeOf original := by
    rw [stems.interest]
    rfl
  have expiry : record.expiry = (start.run history).now + (start.run history).lifetimeOf original := by
    rw [← same]
    exact stems.expiry
  rw [lifetime, ← expiry]
  exact Nat.not_lt.mp ended

variable {settings : Settings} {contentStore : ContentStore} {counters : Counters}
  {nonces : NonceSource}

/-- Whatever a strategy sends goes out on behalf of the downstream other than the face
that was renewed last, while one of them still waits. -/
theorem sent_on_behalf_of_the_latest
    (made : withParts settings contentStore counters nonces = .ok start) (history : List Action)
    (source : FaceId) (interest : Interest) (face : FaceId) (request : Interest)
    (sent : (face, .interest request) ∈ (start.run history).sends (.receiveInterest source interest)) :
    ∃ id entry picked, id.name = interest.name ∧
      ((start.run history).receiveInterest source interest).pit.get? id = some entry ∧
      ((start.run history).receiveInterest source interest).OnBehalf entry source face request
        picked := by
  have sound : Sound (start.run history) := (sound_start made).run history
  obtain ⟨after, isAfter⟩ : ∃ after, after = (start.run history).receiveInterest source interest :=
    ⟨_, rfl⟩
  have whole : start.run (history ++ [.receiveInterest source interest]) = after := by
    rw [run_concat, isAfter]
    rfl
  obtain ⟨records, isRecords, upkept, asks⟩ := sound.asks_of_sent sent
  rw [← isAfter] at upkept ⊢
  obtain ⟨entry, found, same, _⟩ := upkept.entry
  obtain ⟨picked, hint, spoken, isRequest⟩ := asks.spoken
  obtain ⟨awaiting, listed, different, unexpired⟩ := asks.awaited
  have own : (start.run history).newInRecord source ((start.run history).admitted source interest) ∈
      records := by
    rw [isRecords]
    exact PitEntry.self_mem_putRecord _ _ _
  have now : after.now = (start.run history).now := upkept.change.now
  rw [← same] at spoken listed own
  rw [← now] at unexpired
  have neat : entry.Neat := by
    rw [← whole] at found
    exact ((sound_start made).tidy_run (tidy_start made) _).neat found
  refine ⟨_, entry, picked, sound.matched.filed.insert_name interest.name, found, ?_, ?_, ?_, ?_, ?_⟩
  · exact (speaker?_latest spoken listed different).1
  · exact speaks_of_speaker? spoken neat.ins
  · cases isRequest
    exact ⟨hint, rfl⟩
  · exact ⟨awaiting, listed, different, unexpired⟩
  · intro other lasts
    have renewed := (speaker?_latest spoken own (Ne.symm other)).2
    rw [← whole] at found unexpired lasts now ⊢
    obtain ⟨original, stems⟩ := exists_stems made _ found (speaker?_mem spoken)
    refine stems.waits (sound_start made) unexpired ?_ lasts
    rw [now]
    exact renewed

theorem sent_on_behalf_of_the_latest_of_one :
    (⟨257⟩, .interest { name := ⟨[[97]]⟩, nonce := 5 }) ∈
        (usual.run twoHops).sends (.receiveInterest ⟨256⟩ { name := ⟨[[97]]⟩, nonce := 5 }) ∧
      ∃ id entry picked, id.name = ⟨[[97]]⟩ ∧
        ((usual.run twoHops).receiveInterest ⟨256⟩ { name := ⟨[[97]]⟩, nonce := 5 }).pit.get? id =
          some entry ∧
        ((usual.run twoHops).receiveInterest ⟨256⟩ { name := ⟨[[97]]⟩, nonce := 5 }).OnBehalf entry
          ⟨256⟩ ⟨257⟩ { name := ⟨[[97]]⟩, nonce := 5 } picked := by
  have sent : (⟨257⟩, .interest { name := ⟨[[97]]⟩, nonce := 5 }) ∈
      (usual.run twoHops).sends (.receiveInterest ⟨256⟩ { name := ⟨[[97]]⟩, nonce := 5 }) := by
    decide +kernel
  exact ⟨sent, sent_on_behalf_of_the_latest ofSettings_usual twoHops _ _ _ _ sent⟩

/-- Two faces ask for the same. The first asks once more, for a tenth of a second, and
has given up when the next hop itself is about to ask. -/
def oneGivesUp : List Action :=
  [.addFace { isLocal := false }, .addFace { isLocal := false }, .addFace { isLocal := false },
    .changeRoutes (·.addNextHop ⟨[[97]]⟩ { face := ⟨258⟩, cost := 1 }),
    .receiveInterest ⟨257⟩ { name := ⟨[[97]]⟩, nonce := 5, lifetime := some (Duration.ofMillis 1000) },
    .passTime (Duration.ofMillis 500),
    .receiveInterest ⟨256⟩ { name := ⟨[[97]]⟩, nonce := 6, lifetime := some (Duration.ofMillis 10000) },
    .passTime (Duration.ofMillis 600),
    .receiveInterest ⟨257⟩ { name := ⟨[[97]]⟩, nonce := 7, lifetime := some (Duration.ofMillis 100) },
    .passTime (Duration.ofMillis 2000)]

/-- What is sent can be the Interest of a downstream that has given up. -/
theorem sent_on_behalf_of_one_that_gave_up :
    (usual.run oneGivesUp).sends (.receiveInterest ⟨258⟩ { name := ⟨[[97]]⟩, nonce := 8 }) =
        [(⟨258⟩, .interest { name := ⟨[[97]]⟩, nonce := 7, lifetime := some (Duration.ofMillis 100) })] ∧
      (((usual.run oneGivesUp).receiveInterest ⟨258⟩ { name := ⟨[[97]]⟩, nonce := 8 }).pit.get?
          ⟨1, ⟨[[97]]⟩⟩).map (·.inRecords.map fun record => (record.face, record.interest.nonce,
            decide ((usual.run oneGivesUp).now < record.expiry))) =
        some [(⟨257⟩, 7, false), (⟨256⟩, 6, true), (⟨258⟩, 8, true)] := by
  rw [run_eq_evaluate]
  decide +kernel

end Forwarder

end NamedData
