import NamedData.Proofs.Forwarding
import NamedData.Proofs.HostScope

namespace NamedData

namespace Forwarder

variable {action : Action} {before after forwarder : Forwarder} {id : PitId} {entry : PitEntry}
  {record : InRecord} {source face : FaceId} {interest : Interest} {data : Data}

theorem Steps.cacheFiled (steps : Steps action before after) (filed : before.contentStore.Filed) :
    after.contentStore.Filed := by
  induction steps with
  | refl => exact filed
  | tail _ step ih =>
    rcases step.contentStore with same | ⟨_, kept, unsolicited, _, _, same⟩ <;> rw [same]
    · exact ih
    · exact ih.insert kept unsolicited _

theorem Sound.cacheFiled_act (sound : Sound forwarder) (filed : forwarder.contentStore.Filed)
    (action : Action) : (forwarder.act action).contentStore.Filed := by
  refine Steps.cacheFiled (act_steps sound.matched.filed action) ?_
  rw [contentStore_begun]
  exact filed

/-- A change of an entry that adds no downstream. -/
theorem downstream_updateEntry {other : PitId} {change : PitEntry → PitEntry}
    (fewer : ∀ entry, (change entry).inRecords ⊆ entry.inRecords)
    (found : (forwarder.updateEntry other change).pit.get? id = some entry)
    (member : record ∈ entry.inRecords) :
    ∃ old, forwarder.pit.get? id = some old ∧ record ∈ old.inRecords := by
  rw [updateEntry, Pit.get?_modify] at found
  split at found
  · rename_i mine
    subst mine
    obtain ⟨old, here, rfl⟩ := Option.map_eq_some_iff.mp found
    exact ⟨old, here, fewer old member⟩
  · exact ⟨entry, found, member⟩

/-- A downstream of an entry was one before, or has just asked and waits for the
lifetime of its Interest. -/
theorem Step.downstream (step : Step action before after) (filed : before.pit.Filed)
    (found : after.pit.get? id = some entry) (member : record ∈ entry.inRecords) :
    (∃ old, before.pit.get? id = some old ∧ record ∈ old.inRecords) ∨
      ∃ source interest, action = .receiveInterest source interest ∧ id.name = interest.name ∧
        record.face = source ∧ record.expiry = before.now + before.lifetimeOf interest := by
  cases step with
  | @opens source interest =>
    refine Or.inl ?_
    by_cases mine : id = (before.pit.insert interest.name).1
    · subst mine
      rw [filed.get?_insert_self] at found
      cases here : before.pit.get? (before.pit.insert interest.name).1 with
      | some old =>
        rw [here] at found
        cases found
        exact ⟨old, rfl, member⟩
      | none =>
        rw [here] at found
        cases found
        cases member
    · rw [Pit.get?_insert_of_ne mine] at found
      exact ⟨entry, found, member⟩
  | @retimes other timers change still slots =>
    refine Or.inl (downstream_updateEntry (fun entry => ?_) found member)
    obtain ⟨_, _, same⟩ := slots entry
    rw [same]
    exact List.Subset.refl _
  | @joins other source interest cause accepts mine =>
    rw [addInRecord, updateEntry, Pit.get?_modify] at found
    split at found
    · rename_i here
      subst here
      obtain ⟨old, was, rfl⟩ := Option.map_eq_some_iff.mp found
      rcases PitEntry.mem_putRecord member with new | old'
      · rw [new]
        exact Or.inr ⟨source, interest, cause, mine, rfl, rfl⟩
      · exact Or.inl ⟨old, was, old'⟩
    · exact Or.inl ⟨entry, found, member⟩
  | asks =>
    rw [emitInterest_eq] at found
    refine Or.inl (downstream_updateEntry ?_ found member)
    exact fun _ => List.Subset.refl _
  | answers =>
    rw [sendData_eq] at found
    exact Or.inl ⟨entry, found, member⟩
  | notes =>
    rw [noteDeadNonces_eq] at found
    exact Or.inl ⟨entry, found, member⟩
  | clears =>
    exact Or.inl (downstream_updateEntry (fun _ => List.nil_subset _) found member)
  | settles =>
    exact Or.inl (downstream_updateEntry (fun _ => List.nil_subset _) found member)
  | forgets =>
    exact Or.inl (downstream_updateEntry (fun _ _ member => (List.mem_filter.mp member).1) found
      member)
  | erases =>
    rw [Pit.get?_erase] at found
    split at found
    · cases found
    · exact Or.inl ⟨entry, found, member⟩
  | _ => exact Or.inl ⟨entry, found, member⟩

theorem Sound.downstream_act (sound : Sound forwarder)
    (found : (forwarder.act action).pit.get? id = some entry) (member : record ∈ entry.inRecords) :
    (∃ old, forwarder.pit.get? id = some old ∧ record ∈ old.inRecords) ∨
      ∃ source interest, action = .receiveInterest source interest ∧ id.name = interest.name ∧
        record.face = source ∧ ∀ lifetime, interest.lifetime = some lifetime →
          record.expiry = forwarder.now + lifetime := by
  have filed := filed_begun sound.matched.filed action
  have steps := act_steps sound.matched.filed action
  obtain ⟨after, isAfter⟩ : ∃ after, after = forwarder.act action := ⟨_, rfl⟩
  rw [← isAfter] at found steps
  clear isAfter
  induction steps generalizing entry with
  | refl =>
    rw [pit_begun] at found
    exact Or.inl ⟨entry, found, member⟩
  | tail earlier step ih =>
    rcases step.downstream (Steps.filed earlier filed) found member with
      ⟨old, here, old'⟩ | ⟨source, interest, rfl, named, same, expiry⟩
    · exact ih old' here
    · refine Or.inr ⟨source, interest, rfl, named, same, fun lifetime given => ?_⟩
      rw [expiry, (Steps.fixed earlier).2, lifetimeOf, given]
      rfl

/-- Of what a request makes go out, only the answer of the cache is Data. It goes back to
where the request came from, and its name, which extends the one asked for, is that of Data
in the store. -/
theorem cached_of_handleRequest (matched : Matched forwarder.pit forwarder.timers)
    (recorded : (forwarder.entryFor interest.name).Recorded forwarder.faces)
    (present : forwarder.faces.contains source = true) (filed : forwarder.contentStore.Filed) :
    ∃ packets, (forwarder.handleRequest source interest).outbox.sent =
        forwarder.outbox.sent ++ packets ∧
      ∀ face data, (face, .data data) ∈ packets →
        face = source ∧ interest.name.isPrefixOf data.name = true ∧
          ∃ held, forwarder.contentStore.Holds held ∧ held.name = data.name := by
  have onward (counts : Counters → Counters) : ∃ packets,
      (((forwarder.reopen interest.name).count counts).askOnward
          (forwarder.pit.insert interest.name).1 source interest).outbox.sent =
        forwarder.outbox.sent ++ packets ∧
      ∀ face data, (face, .data data) ∈ packets →
        face = source ∧ interest.name.isPrefixOf data.name = true ∧
          ∃ held, forwarder.contentStore.Holds held ∧ held.name = data.name := by
    obtain ⟨packets, sent, asked⟩ := (forwarded_askOnward matched recorded present counts).sent
    refine ⟨packets, sent, fun face data member => ?_⟩
    obtain ⟨_, impossible, _⟩ := (asked _ member).request
    cases impossible
  unfold handleRequest
  dsimp only
  split
  · exact onward id
  · split
    · rename_i found hit
      obtain ⟨_, _, reopened⟩ := forwarder.reopen_frame interest.name
      change (forwarder.reopen interest.name).contentStore.find? interest _ = _ at hit
      rw [reopened] at hit
      have under := filed.under_find? hit
      obtain ⟨name, cached, row, kept, _⟩ := ContentStore.row_of_find? hit
      refine ⟨_, (sent_sendData _ _).trans (congrArg (· ++ _) ?_), fun face data member => ?_⟩
      · rw [outbox_setStragglerTimer]
        exact congrArg Outbox.sent (outbox_reopen interest.name)
      · split at member
        · cases List.mem_singleton.mp member
          exact ⟨rfl, under, found, ⟨name, cached, row, kept⟩, rfl⟩
        · cases member
    · exact onward _

/-- Data that an Interest brings about goes back to where the Interest came from, and
its name, which extends the one asked for, is that of Data in the store. -/
theorem Sound.cached_of_sent (sound : Sound forwarder) (filed : forwarder.contentStore.Filed)
    (sent : (face, .data data) ∈ forwarder.sends (.receiveInterest source interest)) :
    face = source ∧ interest.name.isPrefixOf data.name = true ∧
      ∃ held, forwarder.contentStore.Holds held ∧ held.name = data.name := by
  rcases forwarder.receiveInterest_cases source interest with ⟨change, same⟩ | ⟨kept, judged | judged⟩
  · have silent : forwarder.sends (.receiveInterest source interest) = [] :=
      sends_of_outbox (by rw [Forwarder.act, same]; rfl)
    rw [silent] at sent
    cases sent
  · have silent : forwarder.sends (.receiveInterest source interest) = [] := sends_of_outbox (by
      rw [Forwarder.act, receiveInterest_duplicate judged, outbox_joinDuplicate]
      rfl)
    rw [silent] at sent
    cases sent
  · obtain ⟨admitted, present⟩ := judge_letIn (Or.inr judged)
    obtain ⟨packets, gained, cached⟩ := @cached_of_handleRequest forwarder.received source
      (forwarder.admitted source interest) sound.matched (sound.entryFor interest.name) present filed
    refine cached _ _ (mem_sends sent ?_)
    rw [Forwarder.act, receiveInterest_request judged, admitted]
    exact gained

/-- Data that Data brings about is a copy of it, for a face that waits. -/
theorem Sound.awaits_of_sent (sound : Sound forwarder) {copy : Data}
    (sent : (face, .data copy) ∈ forwarder.sends (.receiveData source data)) :
    copy.name = data.name ∧ forwarder.Awaits face data.name := by
  by_cases accepts : forwarder.Accepts source data.name
  · obtain ⟨downstreams, _, listed, gained⟩ :=
      (sound.fannedOut source data accepts.1 accepts.2).sent
    obtain ⟨downstream, member, same⟩ := List.mem_map.mp (mem_sends sent gained)
    cases same
    exact ⟨rfl, ((listed face).mp member).1⟩
  · obtain ⟨contentStore, counters, same⟩ := receiveData_of_refused accepts
    have silent : forwarder.sends (.receiveData source data) = [] :=
      sends_of_outbox (by rw [Forwarder.act, same])
    rw [silent] at sent
    cases sent

end Forwarder

end NamedData
