import NamedData.Pit
import NamedData.Proofs.LongestPrefix

namespace NamedData

/-- A change of an entry that leaves it the one it is. -/
def PitEntry.Keeps (change : PitEntry → PitEntry) : Prop :=
  ∀ entry, (change entry).id = entry.id ∧ (change entry).name = entry.name

namespace Pit

variable {pit : Pit} {id other : PitId} {name : Name} {entry : PitEntry}
  {change : PitEntry → PitEntry}

/-- What the two tables of the pending Interests always satisfy: an entry is kept under
its own handle and has the name that was handed out with it, the index leads from a name
to the handle of the live entry that stands for it and to nothing else, and the number of
a live entry was handed out. -/
structure Filed (pit : Pit) : Prop where
  belongs : ∀ {id : PitId} {entry : PitEntry}, pit.get? id = some entry →
    entry.id = id ∧ entry.name = id.name
  indexed : ∀ {name : Name} {id : PitId}, pit.find? name = some id ↔
    id.name = name ∧ ∃ entry, pit.get? id = some entry
  numbered : ∀ {id : PitId} {entry : PitEntry}, pit.get? id = some entry → id.number ≤ pit.created

theorem get?_empty (id : PitId) : Pit.empty.get? id = none := by simp [empty, get?]

theorem filed_empty : Pit.empty.Filed where
  belongs found := by
    rw [get?_empty] at found
    cases found
  indexed := by
    refine iff_of_false ?_ fun ⟨_, _, found⟩ => ?_
    · simp [empty, find?]
    · rw [get?_empty] at found
      cases found
  numbered found := by
    rw [get?_empty] at found
    cases found

theorem Filed.own (filed : pit.Filed) (found : pit.get? id = some entry) : entry.id = id :=
  (filed.belongs found).1

theorem Filed.named (filed : pit.Filed) (found : pit.get? id = some entry) :
    entry.name = id.name := (filed.belongs found).2

theorem Filed.name_of_find? (filed : pit.Filed) (found : pit.find? name = some id) :
    id.name = name := (filed.indexed.mp found).1

theorem Filed.exists_get? (filed : pit.Filed) (found : pit.find? name = some id) :
    ∃ entry, pit.get? id = some entry := (filed.indexed.mp found).2

theorem Filed.find?_of_get? (filed : pit.Filed) (found : pit.get? id = some entry) :
    pit.find? id.name = some id := filed.indexed.mpr ⟨rfl, entry, found⟩

/-- A name leads to the handle of the one live entry that has it. -/
theorem Filed.find?_eq_some_iff (filed : pit.Filed) :
    pit.find? name = some id ↔ ∃ entry, pit.get? id = some entry ∧ entry.name = name := by
  rw [filed.indexed]
  constructor
  · rintro ⟨named, entry, found⟩
    exact ⟨entry, found, (filed.named found).trans named⟩
  · rintro ⟨entry, found, named⟩
    exact ⟨(filed.named found).symm.trans named, entry, found⟩

/-- Two handles of live entries with one name are the same handle. -/
theorem Filed.id_eq_of_name (filed : pit.Filed) {entry' : PitEntry} (found : pit.get? id = some entry)
    (found' : pit.get? other = some entry') (same : id.name = other.name) : id = other := by
  have here := filed.find?_of_get? found
  rw [same, filed.find?_of_get? found'] at here
  exact (Option.some.inj here).symm

/-- Nothing is kept under a number that was not given yet. -/
theorem Filed.get?_of_lt (filed : pit.Filed) (fresh : pit.created < id.number) :
    pit.get? id = none :=
  Option.eq_none_iff_forall_ne_some.mpr fun _ found =>
    Nat.not_le_of_lt fresh (filed.numbered found)

theorem get?_modify (other : PitId) : (pit.modify id change).get? other =
    if other = id then (pit.get? id).map change else pit.get? other := by
  simp only [get?, modify, Std.ExtTreeMap.getElem?_modify, Std.LawfulEqCmp.compare_eq_iff_eq]
  by_cases here : id = other
  · rw [if_pos here, if_pos here.symm]
  · rw [if_neg here, if_neg (Ne.symm here)]

theorem get?_modify_self : (pit.modify id change).get? id = (pit.get? id).map change := by
  rw [get?_modify, if_pos rfl]

theorem isSome_get?_modify (other : PitId) :
    ((pit.modify id change).get? other).isSome = (pit.get? other).isSome := by
  rw [get?_modify]
  split
  · rename_i here
    rw [here, Option.isSome_map]
  · rfl

theorem Filed.modify (filed : pit.Filed) (kept : PitEntry.Keeps change) :
    (pit.modify id change).Filed where
  belongs {other entry} found := by
    rw [get?_modify] at found
    split at found
    · rename_i here
      obtain ⟨before, was, rfl⟩ := Option.map_eq_some_iff.mp found
      rw [(kept before).1, (kept before).2, here]
      exact filed.belongs was
    · exact filed.belongs found
  indexed {name other} := by
    rw [← Option.isSome_iff_exists, isSome_get?_modify, Option.isSome_iff_exists]
    exact filed.indexed
  numbered {other entry} found := by
    have live := @isSome_get?_modify pit id change other
    rw [found] at live
    obtain ⟨before, was⟩ := Option.isSome_iff_exists.mp live.symm
    exact filed.numbered was

theorem insert_of_find? (found : pit.find? name = some id) : pit.insert name = (id, pit) := by
  rw [insert, found]

theorem insert_of_none (missing : pit.find? name = none) :
    pit.insert name = (⟨pit.created + 1, name⟩,
      ⟨pit.entries.insert ⟨pit.created + 1, name⟩ { id := ⟨pit.created + 1, name⟩, name },
        pit.index.insert name ⟨pit.created + 1, name⟩, pit.created + 1⟩) := by
  rw [insert, missing]

theorem created_insert_le (name : Name) : pit.created ≤ (pit.insert name).2.created := by
  cases atName : pit.find? name with
  | none =>
    rw [insert_of_none atName]
    exact Nat.le_succ _
  | some id => exact Nat.le_of_eq (by rw [insert_of_find? atName])

theorem Filed.insert_name (filed : pit.Filed) (name : Name) : (pit.insert name).1.name = name := by
  cases atName : pit.find? name with
  | none => rw [insert_of_none atName]
  | some id =>
    rw [insert_of_find? atName]
    exact filed.name_of_find? atName

/-- An entry that is made gets a number that was not given before. -/
theorem Filed.number_insert (filed : pit.Filed) {name : Name}
    (missing : pit.get? (pit.insert name).1 = none) : pit.created < (pit.insert name).1.number := by
  cases atName : pit.find? name with
  | none =>
    rw [insert_of_none atName]
    exact Nat.lt_succ_self _
  | some id =>
    obtain ⟨entry, found⟩ := filed.exists_get? atName
    rw [insert_of_find? atName, found] at missing
    cases missing

theorem find?_insert (name other : Name) : (pit.insert name).2.find? other =
    if other = name then some (pit.insert name).1 else pit.find? other := by
  cases atName : pit.find? name with
  | some id =>
    rw [insert_of_find? atName]
    split
    · rename_i here
      rw [here, atName]
    · rfl
  | none =>
    rw [insert_of_none atName]
    simp only [find?, Std.ExtTreeMap.getElem?_insert, Std.LawfulEqCmp.compare_eq_iff_eq,
      @eq_comm _ name]

/-- Finding or making the entry of a name leaves every other entry alone. -/
theorem get?_insert_of_ne (different : other ≠ (pit.insert name).1) :
    (pit.insert name).2.get? other = pit.get? other := by
  cases atName : pit.find? name with
  | some id => rw [insert_of_find? atName]
  | none =>
    rw [insert_of_none atName] at different ⊢
    simp only [get?, Std.ExtTreeMap.getElem?_insert, Std.LawfulEqCmp.compare_eq_iff_eq]
    exact if_neg (Ne.symm different)

theorem Filed.get?_insert_self (filed : pit.Filed) (name : Name) :
    (pit.insert name).2.get? (pit.insert name).1 =
      some ((pit.get? (pit.insert name).1).getD { id := (pit.insert name).1, name }) := by
  cases atName : pit.find? name with
  | some id =>
    obtain ⟨entry, found⟩ := filed.exists_get? atName
    rw [insert_of_find? atName, found]
    rfl
  | none =>
    rw [insert_of_none atName, filed.get?_of_lt (Nat.lt_succ_self _)]
    simp [get?]

/-- What is there after an entry was found or made: that entry, and what was there. -/
theorem Filed.exists_get?_insert (filed : pit.Filed) (name : Name) (other : PitId) :
    (∃ entry, (pit.insert name).2.get? other = some entry) ↔
      other = (pit.insert name).1 ∨ ∃ entry, pit.get? other = some entry := by
  by_cases here : other = (pit.insert name).1
  · rw [here, filed.get?_insert_self]
    exact iff_of_true ⟨_, rfl⟩ (Or.inl rfl)
  · rw [get?_insert_of_ne here]
    exact (or_iff_right here).symm

theorem Filed.insert (filed : pit.Filed) (name : Name) : (pit.insert name).2.Filed where
  belongs {other entry} found := by
    by_cases here : other = (pit.insert name).1
    · rw [here, filed.get?_insert_self] at found
      rw [here, ← Option.some.inj found]
      cases was : pit.get? (pit.insert name).1 with
      | none => exact ⟨rfl, (filed.insert_name name).symm⟩
      | some old => exact filed.belongs was
    · rw [get?_insert_of_ne here] at found
      exact filed.belongs found
  indexed {under other} := by
    rw [find?_insert, filed.exists_get?_insert]
    have named := filed.insert_name name
    split
    · rename_i mine
      rw [mine]
      constructor
      · rintro same
        cases same
        exact ⟨named, Or.inl rfl⟩
      · rintro ⟨same, rfl | ⟨entry, found⟩⟩
        · rfl
        -- A name with a live entry is found, and nothing is made.
        · have atName := filed.find?_of_get? found
          rw [same] at atName
          rw [insert_of_find? atName]
    · rename_i apart
      rw [filed.indexed]
      refine and_congr_right fun same => (or_iff_right fun here => apart ?_).symm
      rw [← same, here, named]
  numbered {other entry} found := by
    by_cases here : other = (pit.insert name).1
    · cases atName : pit.find? name with
      | none =>
        simp only [here, insert_of_none atName, Nat.le_refl]
      | some id =>
        obtain ⟨old, was⟩ := filed.exists_get? atName
        rw [here, insert_of_find? atName]
        exact filed.numbered was
    · rw [get?_insert_of_ne here] at found
      exact Nat.le_trans (filed.numbered found) (created_insert_le name)

theorem erase_of_none (missing : pit.get? id = none) : pit.erase id = pit := by
  rw [erase, missing]

theorem erase_of_get? (found : pit.get? id = some entry) : pit.erase id =
    { pit with entries := pit.entries.erase id, index := pit.index.erase entry.name } := by
  rw [erase, found]

theorem get?_erase (id other : PitId) :
    (pit.erase id).get? other = if other = id then none else pit.get? other := by
  cases found : pit.get? id with
  | none =>
    rw [erase_of_none found]
    split
    · rename_i here
      rw [here, found]
    · rfl
  | some entry =>
    rw [erase_of_get? found]
    simp only [get?, Std.ExtTreeMap.getElem?_erase, Std.LawfulEqCmp.compare_eq_iff_eq, @eq_comm _ id]

/-- An erased entry goes from the index, and no other name does. -/
theorem Filed.find?_erase (filed : pit.Filed) (found : pit.get? id = some entry) (name : Name) :
    (pit.erase id).find? name = if name = id.name then none else pit.find? name := by
  rw [erase_of_get? found, ← filed.named found]
  simp only [find?, Std.ExtTreeMap.getElem?_erase, Std.LawfulEqCmp.compare_eq_iff_eq,
    @eq_comm _ entry.name]

theorem created_erase (id : PitId) : (pit.erase id).created = pit.created := by
  cases found : pit.get? id with
  | none => rw [erase_of_none found]
  | some entry => rw [erase_of_get? found]

theorem Filed.erase (filed : pit.Filed) (id : PitId) : (pit.erase id).Filed := by
  cases gone : pit.get? id with
  | none =>
    rw [erase_of_none gone]
    exact filed
  | some old =>
    have kept {other : PitId} {entry : PitEntry} (found : (pit.erase id).get? other = some entry) :
        pit.get? other = some entry := by
      rw [get?_erase] at found
      split at found
      · cases found
      · exact found
    refine ⟨fun found => filed.belongs (kept found), fun {name other} => ?_, fun found => ?_⟩
    · rw [filed.find?_erase gone, get?_erase]
      by_cases mine : other = id
      · rw [if_pos mine, mine]
        refine iff_of_false (fun found => ?_) fun ⟨_, _, found⟩ => nomatch found
        split at found
        · cases found
        · rename_i apart
          exact apart (filed.name_of_find? found).symm
      · rw [if_neg mine, ← filed.indexed]
        split
        · rename_i here
          refine iff_of_false nofun fun found => mine ?_
          rw [here, filed.find?_of_get? gone] at found
          exact (Option.some.inj found).symm
        · exact Iff.rfl
    · rw [created_erase]
      exact filed.numbered (kept found)

theorem mem_ids : id ∈ pit.ids ↔ ∃ entry, pit.get? id = some entry := by
  rw [ids, Std.ExtTreeMap.mem_keys, Std.ExtTreeMap.mem_iff_isSome_getElem?, Option.isSome_iff_exists]
  rfl

theorem nodup_ids : pit.ids.Nodup := Std.ExtTreeMap.nodup_keys

theorem isEmpty_iff : pit.isEmpty = true ↔ ∀ id, pit.get? id = none := by
  rw [isEmpty, Std.ExtTreeMap.isEmpty_iff]
  refine ⟨fun bare id => by simp [get?, bare], fun nothing => ?_⟩
  exact Std.ExtTreeMap.ext_getElem? fun id => by
    rw [Std.ExtTreeMap.getElem?_empty]
    exact nothing id

/-- Data answers just the live entries whose names its own name extends. -/
theorem Filed.mem_dataMatches (filed : pit.Filed) {dataName : Name} :
    id ∈ pit.dataMatches dataName ↔
      id.name.isPrefixOf dataName = true ∧ ∃ entry, pit.get? id = some entry := by
  simp only [dataMatches, List.mem_filterMap, Name.mem_prefixes, filed.indexed]
  constructor
  · rintro ⟨_, shorter, rfl, live⟩
    exact ⟨shorter, live⟩
  · rintro ⟨shorter, live⟩
    exact ⟨id.name, shorter, rfl, live⟩

end Pit

end NamedData
