import NamedData.Face
import NamedData.Pit
import NamedData.Proofs.TimerQueue

namespace NamedData

namespace PitEntry

theorem mem_putRecord {α : Type} {faceOf : α → FaceId} {new record : α} {records : List α} :
    record ∈ putRecord faceOf new records → record = new ∨ record ∈ records := by
  induction records with
  | nil => intro member; exact Or.inl (List.mem_singleton.mp member)
  | cons first rest ih =>
    rw [putRecord]
    split
    · intro member
      exact (List.mem_cons.mp member).imp_right (List.mem_cons_of_mem first)
    · intro member
      rcases List.mem_cons.mp member with same | later
      · exact Or.inr (same ▸ List.mem_cons_self)
      · exact (ih later).imp_right (List.mem_cons_of_mem first)

theorem self_mem_putRecord {α : Type} (faceOf : α → FaceId) (new : α) (records : List α) :
    new ∈ putRecord faceOf new records := by
  induction records with
  | nil => exact List.mem_singleton.mpr rfl
  | cons first rest ih =>
    rw [putRecord]
    split
    · exact List.mem_cons_self
    · exact List.mem_cons_of_mem first ih

theorem mem_putRecord_of_ne {α : Type} {faceOf : α → FaceId} {new record : α} {records : List α}
    (member : record ∈ records) (different : faceOf record ≠ faceOf new) :
    record ∈ putRecord faceOf new records := by
  induction records with
  | nil => cases member
  | cons first rest ih =>
    rw [putRecord]
    rcases List.mem_cons.mp member with same | later
    · rw [← same, if_neg different]
      exact List.mem_cons_self
    · split
      · exact List.mem_cons_of_mem new later
      · exact List.mem_cons_of_mem first (ih later)

theorem expiry_le_last {entry : PitEntry} {last : Instant}
    (found : entry.lastInRecordExpiry? = some last) {record : InRecord}
    (member : record ∈ entry.inRecords) : record.expiry ≤ last :=
  (List.max?_eq_some_iff.mp found).2 _ (List.mem_map_of_mem member)

theorem lastInRecordExpiry?_of_mem {entry : PitEntry} {record : InRecord}
    (member : record ∈ entry.inRecords) : ∃ last, entry.lastInRecordExpiry? = some last := by
  cases found : entry.lastInRecordExpiry? with
  | some last => exact ⟨last, rfl⟩
  | none =>
    have nothing := List.map_eq_nil_iff.mp (List.max?_eq_none_iff.mp found)
    rw [nothing] at member
    cases member

/-- When the timers of an entry go off. The one that ends the wait does so no
earlier than the last downstream gives up, and while the one that clears a
settled entry away is not set, some downstream waits and the other is set. -/
structure Timed (entry : PitEntry) : Prop where
  covered : ∀ {timer : TimerId} {record : InRecord}, entry.unsatisfyTimer = some timer →
    record ∈ entry.inRecords → record.expiry ≤ timer.deadline
  awaited : entry.stragglerTimer = none → entry.inRecords ≠ [] ∧ entry.unsatisfyTimer.isSome = true

/-- What the records of an entry are about: faces that are there, and requests
for the name of the entry. -/
structure Recorded (faces : FaceTable) (entry : PitEntry) : Prop where
  named : ∀ {record : InRecord}, record ∈ entry.inRecords → record.interest.name = entry.name
  inFaces : ∀ {record : InRecord}, record ∈ entry.inRecords → faces.contains record.face = true
  outFaces : ∀ {record : OutRecord}, record ∈ entry.outRecords → faces.contains record.face = true

variable {faces : FaceTable} {entry : PitEntry}

theorem Recorded.bare (faces : FaceTable) (id : PitId) (name : Name) :
    Recorded faces { id, name } where
  named member := by cases member
  inFaces member := by cases member
  outFaces member := by cases member

theorem Recorded.addInRecord (recorded : Recorded faces entry) {face : FaceId}
    {interest : Interest} (now : Instant) (lifetime : Duration)
    (present : faces.contains face = true) (same : interest.name = entry.name) :
    Recorded faces (entry.addInRecord face interest now lifetime) where
  named member := by
    rcases mem_putRecord member with new | old
    · rw [new]; exact same
    · exact recorded.named old
  inFaces member := by
    rcases mem_putRecord member with new | old
    · rw [new]; exact present
    · exact recorded.inFaces old
  outFaces := recorded.outFaces

theorem Recorded.addOutRecord (recorded : Recorded faces entry) {face : FaceId} (nonce : Nonce)
    (now : Instant) (lifetime : Duration) (present : faces.contains face = true) :
    Recorded faces (entry.addOutRecord face nonce now lifetime) where
  named := recorded.named
  inFaces := recorded.inFaces
  outFaces member := by
    rcases mem_putRecord member with new | old
    · rw [new]; exact present
    · exact recorded.outFaces old

theorem Recorded.of_subset (recorded : Recorded faces entry) {fewer : PitEntry}
    (same : fewer.name = entry.name) (ins : fewer.inRecords ⊆ entry.inRecords)
    (outs : fewer.outRecords ⊆ entry.outRecords) : Recorded faces fewer where
  named member := by rw [same]; exact recorded.named (ins member)
  inFaces member := recorded.inFaces (ins member)
  outFaces member := recorded.outFaces (outs member)

end PitEntry

end NamedData
