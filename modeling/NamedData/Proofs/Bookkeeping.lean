import NamedData.Proofs.NextHops

namespace NamedData

namespace PitEntry

/-- A renewed record takes no new face in. -/
theorem map_putRecord {α : Type} (faceOf : α → FaceId) (new : α) (records : List α) :
    (putRecord faceOf new records).map faceOf =
      if faceOf new ∈ records.map faceOf then records.map faceOf
      else records.map faceOf ++ [faceOf new] := by
  induction records with
  | nil => rfl
  | cons first rest ih =>
    rw [putRecord]
    by_cases same : faceOf first = faceOf new
    · simp [same]
    · rw [if_neg same, List.map_cons, ih, List.map_cons]
      by_cases later : faceOf new ∈ rest.map faceOf
      · rw [if_pos later, if_pos (List.mem_cons_of_mem _ later)]
      · rw [if_neg later, if_neg, List.cons_append]
        exact fun member => (List.mem_cons.mp member).elim (fun here => same here.symm) later

theorem nodup_putRecord {α : Type} {faceOf : α → FaceId} {records : List α} (new : α)
    (once : (records.map faceOf).Nodup) : ((putRecord faceOf new records).map faceOf).Nodup := by
  rw [map_putRecord]
  split
  · exact once
  · rename_i absent
    exact List.nodup_append.mpr ⟨once, List.nodup_singleton _, fun face member other last same =>
      absent (by rw [← List.mem_singleton.mp last, ← same]; exact member)⟩

theorem nodup_filter {α : Type} {faceOf : α → FaceId} {records : List α} (keep : α → Bool)
    (once : (records.map faceOf).Nodup) : ((records.filter keep).map faceOf).Nodup :=
  List.Nodup.sublist (List.filter_sublist.map faceOf) once

/-- Each face has one record of each kind at most. -/
structure Neat (entry : PitEntry) : Prop where
  ins : (entry.inRecords.map InRecord.face).Nodup
  outs : (entry.outRecords.map OutRecord.face).Nodup

theorem Neat.bare (id : PitId) (name : Name) : Neat { id, name } := ⟨List.nodup_nil, List.nodup_nil⟩

theorem Neat.outRecord_eq {entry : PitEntry} (neat : entry.Neat) {record other : OutRecord}
    (member : record ∈ entry.outRecords) (member' : other ∈ entry.outRecords)
    (same : record.face = other.face) : record = other :=
  List.inj_on_of_nodup_map neat.outs member member' same

end PitEntry

namespace Forwarder

variable {action : Action} {before after forwarder : Forwarder} {id other : PitId}

theorem Edit.neat {entry edited : PitEntry} (edit : Edit action forwarder entry edited)
    (neat : entry.Neat) : edited.Neat := by
  cases edit with
  | retimed => exact ⟨neat.ins, neat.outs⟩
  | joined => exact ⟨PitEntry.nodup_putRecord _ neat.ins, neat.outs⟩
  | asked => exact ⟨neat.ins, PitEntry.nodup_putRecord _ neat.outs⟩
  | cleared => exact ⟨List.nodup_nil, neat.outs⟩
  | settled => exact ⟨List.nodup_nil, PitEntry.nodup_filter _ neat.outs⟩
  | forgotten => exact ⟨PitEntry.nodup_filter _ neat.ins, PitEntry.nodup_filter _ neat.outs⟩

/-- Every entry is neat, and entries with one number are one entry. -/
structure Tidy (forwarder : Forwarder) : Prop where
  neat : ∀ {id : PitId} {entry : PitEntry}, forwarder.pit.get? id = some entry → entry.Neat
  numbers : ∀ {id other : PitId} {entry entry' : PitEntry}, forwarder.pit.get? id = some entry →
    forwarder.pit.get? other = some entry' → id.number = other.number → id = other

theorem Step.created_le (step : Step action before after) :
    before.pit.created ≤ after.pit.created := by
  cases step with
  | opens => exact Pit.created_insert_le _
  | asks =>
    rw [emitInterest_eq]
    exact Nat.le_refl _
  | answers => exact Nat.le_of_eq (by rw [sendData_eq])
  | notes => exact Nat.le_of_eq (by rw [noteDeadNonces_eq])
  | erases => exact Nat.le_of_eq (Pit.created_erase _).symm
  | _ => exact Nat.le_refl _

theorem Steps.created_le (steps : Steps action before after) :
    before.pit.created ≤ after.pit.created := by
  induction steps with
  | refl => exact Nat.le_refl _
  | tail _ step ih => exact Nat.le_trans ih step.created_le

/-- An entry that comes up does so for an Interest of its name, and its number is
a new one. -/
theorem Steps.made (steps : Steps action before after) (filed : before.pit.Filed)
    (missing : before.pit.get? id = none) {entry : PitEntry} (found : after.pit.get? id = some entry) :
    (∃ source interest, action = .receiveInterest source interest ∧ id.name = interest.name) ∧
      before.pit.created < id.number := by
  induction steps generalizing entry with
  | refl =>
    rw [missing] at found
    cases found
  | tail earlier step ih =>
    have fate := step.fate (Steps.filed earlier filed) id
    rw [found] at fate
    generalize here : Pit.get? _ id = was at fate ih
    cases fate with
    | kept => exact ih rfl
    | edited => exact ih rfl
    | made cause mine fresh =>
      exact ⟨⟨_, _, cause, mine⟩, Nat.lt_of_le_of_lt (Steps.created_le earlier) fresh⟩

theorem Steps.tidy (steps : Steps action before after) (filed : before.pit.Filed)
    (tidy : before.Tidy) : after.Tidy := by
  refine ⟨fun found => Steps.entries steps filed PitEntry.Neat.bare
    (fun _ edit neat => edit.neat neat) tidy.neat found, ?_⟩
  have number_le {id : PitId} {entry : PitEntry} (found : before.pit.get? id = some entry) :
      id.number ≤ before.pit.created := filed.numbered found
  intro id other entry entry' found found' same
  cases old : before.pit.get? id with
  | some was =>
    cases old' : before.pit.get? other with
    | some was' => exact tidy.numbers old old' same
    | none =>
      have fresh := (Steps.made steps filed old' found').2
      have bound := number_le old
      omega
  | none =>
    obtain ⟨⟨_, interest, cause, mine⟩, fresh⟩ := Steps.made steps filed old found
    cases old' : before.pit.get? other with
    | some was' =>
      have bound := number_le old'
      omega
    | none =>
      obtain ⟨⟨_, _, cause', mine'⟩, _⟩ := Steps.made steps filed old' found'
      rw [cause] at cause'
      cases cause'
      exact (Steps.filed steps filed).id_eq_of_name found found' (mine.trans mine'.symm)

theorem Tidy.act (tidy : forwarder.Tidy) (filed : forwarder.pit.Filed) (action : Action) :
    (forwarder.act action).Tidy := by
  refine Steps.tidy (act_steps filed action) (filed_begun filed action) ?_
  exact ⟨by rw [pit_begun]; exact tidy.neat, by rw [pit_begun]; exact tidy.numbers⟩

theorem Sound.tidy_run (sound : Sound forwarder) (tidy : forwarder.Tidy) (actions : List Action) :
    (forwarder.run actions).Tidy := by
  induction actions generalizing forwarder with
  | nil => exact tidy
  | cons action rest ih => exact ih (sound.act action) (tidy.act sound.matched.filed action)

/-- An entry is made by an action: its id finds one after it and found none before. -/
def Makes (forwarder : Forwarder) (action : Action) (id : PitId) : Prop :=
  forwarder.pit.get? id = none ∧ ∃ entry, (forwarder.act action).pit.get? id = some entry

theorem Makes.made (makes : forwarder.Makes action id) (filed : forwarder.pit.Filed) :
    (∃ source interest, action = .receiveInterest source interest ∧ id.name = interest.name) ∧
      forwarder.pit.created < id.number := by
  obtain ⟨missing, entry, found⟩ := makes
  rw [← pit_begun action] at missing
  have made := Steps.made (act_steps filed action) (filed_begun filed action) missing found
  rw [pit_begun] at made
  exact made

theorem created_le_act (filed : forwarder.pit.Filed) (action : Action) :
    forwarder.pit.created ≤ (forwarder.act action).pit.created := by
  have grown := Steps.created_le (act_steps filed action)
  rw [pit_begun] at grown
  exact grown

theorem Sound.created_le_run (sound : Sound forwarder) (actions : List Action) :
    forwarder.pit.created ≤ (forwarder.run actions).pit.created := by
  induction actions generalizing forwarder with
  | nil => exact Nat.le_refl _
  | cons action rest ih =>
    exact Nat.le_trans (created_le_act sound.matched.filed action) (ih (sound.act action))

/-- Some record of a pending Interest or some route is about a face. -/
def Mentions (forwarder : Forwarder) (face : FaceId) : Prop :=
  (∃ id entry, forwarder.pit.get? id = some entry ∧
    ((∃ record ∈ entry.inRecords, record.face = face) ∨
      ∃ record ∈ entry.outRecords, record.face = face)) ∨
  ∃ (under : Name) (hops : List NextHop), forwarder.fib.routes[under]? = some hops ∧
    ∃ hop ∈ hops, hop.face = face

theorem Steps.fib_of_removeFace {face : FaceId} (steps : Steps (.removeFace face) before after) :
    after.fib = before.fib := by
  induction steps with
  | refl => rfl
  | tail _ step ih =>
    rw [← ih]
    cases step with
    | asks =>
      rw [emitInterest_eq]
    | answers =>
      rw [sendData_eq]
    | notes =>
      rw [noteDeadNonces_eq]
    | raises _ _ _ cause => cases cause
    | _ => rfl

/-- Nothing is left of a face that has gone away. -/
theorem Sound.not_mentions (sound : Sound before) {face : FaceId}
    (removed : before.removeFace face = .ok after) : ¬ after.Mentions face := by
  have cleared := sound.removeFace removed
  obtain ⟨_, steady, _, _⟩ := removeFace_spec sound.matched removed
  have faces : after.faces = before.faces.remove face := steady.faces
  have gone {record : FaceId} (present : after.faces.contains record = true) : record ≠ face := by
    rw [faces, FaceTable.contains_remove] at present
    exact bne_iff_ne.mp (Bool.and_eq_true_iff.mp present).1
  have fib : after.fib = before.fib.removeFace face := by
    have same := Steps.fib_of_removeFace (act_steps sound.matched.filed (.removeFace face))
    rw [act_removeFace removed] at same
    unfold Forwarder.removeFace at removed
    split at removed
    · rename_i present
      simp only [begun, present, if_true] at same
      exact same
    · cases removed
  rintro (⟨id, entry, found, ⟨record, member, same⟩ | ⟨record, member, same⟩⟩ |
    ⟨under, hops, atName, hop, member, same⟩)
  · exact gone ((cleared.recorded found).inFaces member) same
  · exact gone ((cleared.recorded found).outFaces member) same
  · rw [fib, Fib.getElem?_removeFace] at atName
    obtain ⟨old, _, kept⟩ := Option.bind_eq_some_iff.mp atName
    obtain ⟨rfl, _⟩ := Fib.left_eq_some kept
    exact bne_iff_ne.mp (List.mem_filter.mp member).2 same

/-- The pending Interests are in order. The index of the names and the table of the
entries are inverse to each other, an id and its number name one entry, an entry has the
name its id was given for, and its records are about that name and about faces that are
there, each once at most. -/
structure WellFormed (forwarder : Forwarder) : Prop where
  indexed : ∀ {name : Name} {id : PitId}, forwarder.pit.find? name = some id ↔
    ∃ entry, forwarder.pit.get? id = some entry ∧ entry.name = name
  own : ∀ {id : PitId} {entry : PitEntry}, forwarder.pit.get? id = some entry → entry.id = id
  named : ∀ {id : PitId} {entry : PitEntry}, forwarder.pit.get? id = some entry →
    entry.name = id.name
  listed : ∀ {id : PitId}, id ∈ forwarder.pit.ids ↔ ∃ entry, forwarder.pit.get? id = some entry
  once : forwarder.pit.ids.Nodup
  numbers : ∀ {id other : PitId} {entry entry' : PitEntry}, forwarder.pit.get? id = some entry →
    forwarder.pit.get? other = some entry' → id.number = other.number → id = other
  neat : ∀ {id : PitId} {entry : PitEntry}, forwarder.pit.get? id = some entry → entry.Neat
  recorded : ∀ {id : PitId} {entry : PitEntry}, forwarder.pit.get? id = some entry →
    entry.Recorded forwarder.faces

theorem Sound.wellFormed (sound : Sound forwarder) (tidy : forwarder.Tidy) :
    forwarder.WellFormed where
  indexed := sound.matched.filed.find?_eq_some_iff
  own := sound.matched.filed.own
  named := sound.matched.filed.named
  listed := Pit.mem_ids
  once := Pit.nodup_ids
  numbers := tidy.numbers
  neat := tidy.neat
  recorded := sound.recorded

variable {settings : Settings} {contentStore : ContentStore} {counters : Counters}
  {nonces : NonceSource} {start : Forwarder}

theorem tidy_start (made : withParts settings contentStore counters nonces = .ok start) :
    start.Tidy := by
  obtain ⟨_, _, rfl⟩ := eq_of_withParts made
  refine ⟨fun {id _} found => ?_, fun {id _ _ _} found => ?_⟩ <;>
    cases (Pit.get?_empty id).symm.trans found

theorem Reach.tidy (reach : Reach start forwarder)
    (made : withParts settings contentStore counters nonces = .ok start) : forwarder.Tidy := by
  induction reach with
  | start => exact tidy_start made
  | next action earlier ih => exact ih.act (earlier.sound made).matched.filed action

/-- Whatever happens to a forwarder, its pending Interests stay in order, no id is
handed out twice, and a face goes away without a trace or not at all. -/
theorem pending_stay_well_formed (made : withParts settings contentStore counters nonces = .ok start)
    (history : List Action) :
    (start.run history).WellFormed ∧
      (∀ {action : Action} {id : PitId}, (start.run history).Makes action id →
        (∀ {other : PitId}, (start.run history).Makes action other → other = id) ∧
        ∀ {between : List Action} {later : Action} {other : PitId},
          (start.run (history ++ action :: between)).Makes later other → id.number < other.number) ∧
      ∀ face : FaceId, if (start.run history).faces.contains face
        then ∃ after, (start.run history).removeFace face = .ok after ∧ ¬ after.Mentions face
        else (start.run history).removeFace face = .error (.notFound face) ∧
          (start.run history).act (.removeFace face) = start.run history := by
  have sound : Sound (start.run history) := (sound_start made).run history
  have filed := sound.matched.filed
  refine ⟨sound.wellFormed ((sound_start made).tidy_run (tidy_start made) history), ?_, ?_⟩
  · intro action id makes
    refine ⟨fun again => ?_, fun {between later other} makes' => ?_⟩
    · obtain ⟨_, _, cause, mine⟩ := (makes.made filed).1
      obtain ⟨_, _, cause', mine'⟩ := (again.made filed).1
      rw [cause] at cause'
      cases cause'
      obtain ⟨_, _, found⟩ := makes
      obtain ⟨_, _, found'⟩ := again
      exact (sound.act action).matched.filed.id_eq_of_name found' found (mine'.trans mine.symm)
    · obtain ⟨_, _, found⟩ := makes
      have next := sound.act action
      have given : id.number ≤ ((start.run history).act action).pit.created :=
        next.matched.filed.numbered found
      rw [run_append] at makes'
      exact Nat.lt_of_le_of_lt (Nat.le_trans given (next.created_le_run between))
        (makes'.made (next.run between).matched.filed).2
  · intro face
    split
    · rename_i present
      obtain ⟨after, removed⟩ : ∃ after, (start.run history).removeFace face = .ok after := by
        unfold Forwarder.removeFace
        rw [if_pos present]
        exact ⟨_, rfl⟩
      exact ⟨after, removed, sound.not_mentions removed⟩
    · rename_i absent
      have refused : (start.run history).removeFace face = .error (.notFound face) := by
        unfold Forwarder.removeFace
        rw [if_neg absent]
      exact ⟨refused, by simp only [Forwarder.act, refused, Except.toOption, Option.getD_none]⟩

theorem pending_stay_well_formed_for_one :
    (usual.run oneWaits).pit.find? ⟨[[97]]⟩ = some ⟨1, ⟨[[97]]⟩⟩ ∧ (usual.run oneWaits).WellFormed ∧
      (usual.run oneWaits).fib.hasNextHop ⟨[[97]]⟩ ⟨257⟩ = true ∧
      ∃ after, (usual.run oneWaits).removeFace ⟨257⟩ = .ok after ∧ ¬ after.Mentions ⟨257⟩ := by
  obtain ⟨wellFormed, _, removal⟩ := pending_stay_well_formed ofSettings_usual oneWaits
  have removed := removal ⟨257⟩
  rw [if_pos (by decide)] at removed
  exact ⟨by decide, wellFormed, by decide, removed⟩

end Forwarder

end NamedData
