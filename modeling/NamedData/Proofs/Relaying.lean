import NamedData.Proofs.Counting
import NamedData.Proofs.Origins

namespace NamedData

namespace Forwarder

variable {before after forwarder start : Forwarder} {id : PitId} {entry : PitEntry} {face : FaceId}
  {records : List InRecord} {picked : InRecord} {hint : Option String} {newNonce : Bool}
  {history : List Action}

/-- The downstream that speaks to a face. Among the others it was renewed last, and
stands last of those renewed then. The face is spoken to by itself only when nobody
else waits. -/
inductive Speaks (face : FaceId) (records : List InRecord) (picked : InRecord) : Prop
  | other (earlier later : List InRecord) (split : records = earlier ++ picked :: later)
      (apart : picked.face ≠ face)
      (latest : ∀ record ∈ earlier, record.face ≠ face → record.renewed ≤ picked.renewed)
      (last : ∀ record ∈ later, record.face ≠ face → record.renewed < picked.renewed)
  | alone (own : picked.face = face) (only : records = [picked])

/-- Whoever stands behind the one that speaks was renewed earlier. -/
theorem speaker?_split (spoken : speaker? face records = some picked) (apart : picked.face ≠ face) :
    ∃ earlier later, records = earlier ++ picked :: later ∧
      ∀ record ∈ later, record.face ≠ face → record.renewed < picked.renewed := by
  induction records generalizing picked with
  | nil => cases spoken
  | cons first rest ih =>
    rw [speaker?] at spoken
    split at spoken
    · rename_i alone
      cases spoken
      refine ⟨[], rest, rfl, fun record member => ?_⟩
      obtain ⟨other, spoken⟩ := @exists_speaker? rest face record member
      cases alone.symm.trans spoken
    · rename_i other later
      split at spoken
      · rename_i speaks
        cases spoken
        refine ⟨[], rest, rfl, fun record member different => ?_⟩
        obtain ⟨apart', earlier⟩ := speaker?_latest later member different
        exact Nat.lt_of_le_of_lt earlier (later_of_speaksBefore speaks apart').2
      · cases spoken
        obtain ⟨earlier, after, split, behind⟩ := ih later apart
        exact ⟨first :: earlier, after, by rw [split]; rfl, behind⟩

theorem speaks_of_speaker? (spoken : speaker? face records = some picked)
    (once : (records.map InRecord.face).Nodup) : Speaks face records picked := by
  by_cases own : picked.face = face
  · refine .alone own ?_
    have same (record : InRecord) (member : record ∈ records) : record = picked := by
      refine List.inj_on_of_nodup_map once member (speaker?_mem spoken) ?_
      by_contra different
      rw [own] at different
      exact (speaker?_latest spoken member different).1 own
    cases records with
    | nil => cases spoken
    | cons first rest =>
      cases rest with
      | nil => rw [same first List.mem_cons_self]
      | cons second more =>
        have twice : first = second := by
          rw [same first List.mem_cons_self, same second (List.mem_cons_of_mem _ List.mem_cons_self)]
        rw [twice] at once
        exact absurd List.mem_cons_self (List.nodup_cons.mp once).1
  · obtain ⟨earlier, later, split, behind⟩ := speaker?_split spoken own
    refine .other earlier later split own (fun record member different => ?_) behind
    refine (speaker?_latest spoken ?_ different).2
    rw [split]
    exact List.mem_append_left _ member

variable {settings : Settings} {contentStore : ContentStore} {counters : Counters}
  {nonces : NonceSource}

end Forwarder

end NamedData
