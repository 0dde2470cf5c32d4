import NamedData.Proofs.Steps

namespace NamedData

namespace Forwarder

/-- What a step may do to a live entry. -/
inductive Edit (action : Action) (forwarder : Forwarder) (entry : PitEntry) : PitEntry → Prop
  | retimed (unsatisfy straggler : Option TimerId) :
      Edit action forwarder entry (entry.retimed unsatisfy straggler)
  | joined {source : FaceId} {interest : Interest} (lifetime : Duration)
      (accepts : forwarder.Accepts source interest.name) (mine : entry.name = interest.name) :
      Edit action forwarder entry
        (entry.addInRecord source (forwarder.admitted source interest) forwarder.now lifetime)
  | asked {face : FaceId} {hint : Option String} {newNonce : Bool} (nonce : Nonce)
      (lifetime : Duration) (present : forwarder.faces.contains face = true)
      (leave : forwarder.Leave entry.id face hint newNonce action) :
      Edit action forwarder entry (entry.addOutRecord face nonce forwarder.now lifetime)
  | cleared : Edit action forwarder entry entry.clearInRecords
  | settled {source : FaceId} {data : Data} (cause : action = .receiveData source data)
      (accepts : forwarder.Accepts source data.name)
      (under : entry.name.isPrefixOf data.name = true) :
      Edit action forwarder entry (entry.clearInRecords.deleteOutRecord source)
  | forgotten {face : FaceId} (cause : action = .removeFace face) :
      Edit action forwarder entry ((entry.deleteInRecord face).deleteOutRecord face)

/-- What becomes of an entry in one step. -/
inductive Fate (action : Action) (forwarder : Forwarder) (id : PitId) :
    Option PitEntry → Option PitEntry → Prop
  | kept (found : Option PitEntry) : Fate action forwarder id found found
  | edited {entry edited : PitEntry} (edit : Edit action forwarder entry edited) :
      Fate action forwarder id (some entry) (some edited)
  | made {source : FaceId} {interest : Interest} (cause : action = .receiveInterest source interest)
      (mine : id.name = interest.name) (fresh : forwarder.pit.created < id.number) :
      Fate action forwarder id none (some { id, name := id.name })
  | ended (entry : PitEntry) (cause : Ends action) :
      Fate action forwarder id (some entry) none

variable {action : Action} {before after forwarder : Forwarder} {id : PitId}

theorem fate_updateEntry {change : PitEntry → PitEntry}
    (edit : ∀ entry, forwarder.pit.get? id = some entry →
      Edit action forwarder entry (change entry)) (other : PitId) :
    Fate action forwarder other (forwarder.pit.get? other)
      ((forwarder.updateEntry id change).pit.get? other) := by
  rw [updateEntry, Pit.get?_modify]
  split
  · rename_i mine
    subst mine
    cases found : forwarder.pit.get? other with
    | none => exact .kept none
    | some entry => exact .edited (edit entry found)
  · exact .kept _

theorem Step.fate (step : Step action before after) (filed : before.pit.Filed) (other : PitId) :
    Fate action before other (before.pit.get? other) (after.pit.get? other) := by
  cases step with
  | @opens source interest cause =>
    by_cases mine : other = (before.pit.insert interest.name).1
    · subst mine
      rw [filed.get?_insert_self]
      cases found : before.pit.get? (before.pit.insert interest.name).1 with
      | some entry => exact .kept _
      | none =>
        have named := filed.insert_name interest.name
        have made := Fate.made cause named (filed.number_insert found)
        rw [named] at made
        exact made
    · rw [Pit.get?_insert_of_ne mine]
      exact .kept _
  | retimes _ slots =>
    refine fate_updateEntry (fun entry _ => ?_) other
    obtain ⟨unsatisfy, straggler, same⟩ := slots entry
    rw [same]
    exact .retimed unsatisfy straggler
  | joins _ accepts mine =>
    exact fate_updateEntry
      (fun entry found => .joined _ accepts ((filed.named found).trans mine)) other
  | asks _ reachable _ _ _ leave =>
    rw [emitInterest_eq]
    refine fate_updateEntry (fun entry found => ?_) other
    rw [← filed.own found] at leave
    exact .asked _ _ (Bool.and_eq_true_iff.mp reachable).2 leave
  | answers =>
    rw [sendData_eq]
    exact .kept _
  | notes =>
    rw [noteDeadNonces_eq]
    exact .kept _
  | clears =>
    exact fate_updateEntry (fun entry _ => .cleared) other
  | settles cause accepts under =>
    refine fate_updateEntry (fun entry found => ?_) other
    rw [← filed.named found] at under
    exact .settled cause accepts under
  | forgets _ cause =>
    exact fate_updateEntry (fun entry _ => .forgotten cause) other
  | erases gone cause =>
    rw [Pit.get?_erase]
    split
    · cases before.pit.get? other with
      | none => exact .kept none
      | some entry => exact .ended entry cause
    · exact .kept _
  | _ => exact .kept _

theorem Step.filed (step : Step action before after) (filed : before.pit.Filed) :
    after.pit.Filed := by
  cases step with
  | opens => exact filed.insert _
  | retimes _ slots =>
    refine filed.modify fun entry => ?_
    obtain ⟨_, _, same⟩ := slots entry
    rw [same]
    exact ⟨rfl, rfl⟩
  | joins => exact filed.modify fun _ => ⟨rfl, rfl⟩
  | asks =>
    rw [emitInterest_eq]
    exact filed.modify fun _ => ⟨rfl, rfl⟩
  | answers =>
    rw [sendData_eq]
    exact filed
  | notes =>
    rw [noteDeadNonces_eq]
    exact filed
  | clears => exact filed.modify fun _ => ⟨rfl, rfl⟩
  | settles => exact filed.modify fun _ => ⟨rfl, rfl⟩
  | forgets => exact filed.modify fun _ => ⟨rfl, rfl⟩
  | erases gone => exact filed.erase gone
  | _ => exact filed

theorem Steps.filed (steps : Steps action before after) (filed : before.pit.Filed) :
    after.pit.Filed := by
  induction steps with
  | refl => exact filed
  | tail _ step ih => exact step.filed ih

/-- What holds of a new entry and survives every edit holds of all entries. -/
theorem Steps.entries {Holds : PitEntry → Prop} (steps : Steps action before after)
    (filed : before.pit.Filed) (bare : ∀ (id : PitId) (name : Name), Holds { id, name })
    (edits : ∀ {forwarder : Forwarder} {entry edited : PitEntry}, forwarder.faces = before.faces →
      Edit action forwarder entry edited → Holds entry → Holds edited)
    (start : ∀ {id : PitId} {entry : PitEntry}, before.pit.get? id = some entry → Holds entry)
    {entry : PitEntry} (found : after.pit.get? id = some entry) : Holds entry := by
  induction steps generalizing entry with
  | refl => exact start found
  | tail earlier step ih =>
    have fate := step.fate (Steps.filed earlier filed) id
    rw [found] at fate
    generalize here : Pit.get? _ id = was at fate ih
    cases fate with
    | kept => exact ih rfl
    | edited edit => exact edits (Steps.fixed earlier).1 edit (ih rfl)
    | made => exact bare id id.name

theorem Edit.named {entry edited : PitEntry} (edit : Edit action forwarder entry edited)
    (named : ∀ record ∈ entry.inRecords, record.interest.name = entry.name) :
    ∀ record ∈ edited.inRecords, record.interest.name = edited.name := by
  cases edit with
  | joined _ _ mine =>
    intro record member
    rcases PitEntry.mem_putRecord member with new | old
    · rw [new]
      exact mine.symm
    · exact named record old
  | retimed => exact named
  | asked => exact named
  | cleared => exact fun record member => by cases member
  | settled => exact fun record member => by cases member
  | forgotten => exact fun record member => named record (List.mem_filter.mp member).1

/-- A packet goes out in one step, with what allows it. -/
inductive Gives (action : Action) (forwarder : Forwarder) : Forwarder → FaceId × Packet → Prop
  | interest {id : PitId} {entry : PitEntry} {face : FaceId} {record : InRecord}
      {hint : Option String} {newNonce : Bool} (found : forwarder.pit.get? id = some entry)
      (reachable : forwarder.isReachable face = true)
      (inScope : forwarder.violatesScope entry face = false)
      (spoken : speaker? face entry.inRecords = some record)
      (unspent : record.interest.hopLimit = some 0 → forwarder.faces.isLocal face = true)
      (leave : forwarder.Leave id face hint newNonce action) :
      Gives action forwarder (forwarder.emitInterest id face record.interest hint newNonce)
        (face, .interest { forwarder.outgoing record.interest newNonce with
          incomingFace := none, targetHint := hint })
  | data {data : Data} {face : FaceId} (allowed : forwarder.maySend data face = true) :
      Gives action forwarder (forwarder.sendData data face)
        (face, .data { data with incomingFace := none })

theorem Gives.step {out : FaceId × Packet} (gives : Gives action before after out) :
    Step action before after := by
  cases gives with
  | interest found reachable inScope spoken unspent leave =>
    exact .asks found reachable inScope spoken unspent leave
  | data allowed => exact .answers allowed

theorem Step.gives (step : Step action before after) : after.outbox = before.outbox ∨
    ∃ out, Gives action before after out ∧ after.outbox.sent = before.outbox.sent ++ [out] := by
  cases step with
  | asks found reachable inScope spoken unspent leave =>
    refine Or.inr ⟨_, .interest found reachable inScope spoken unspent leave, ?_⟩
    rw [emitInterest_eq]
    rfl
  | @answers data face allowed =>
    refine Or.inr ⟨_, .data allowed, ?_⟩
    rw [sent_sendData, if_pos allowed]
  | notes =>
    rw [noteDeadNonces_eq]
    exact Or.inl rfl
  | _ => exact Or.inl rfl

/-- Every packet that steps hand out goes out in one of them. -/
theorem Steps.gives (steps : Steps action before after) :
    ∃ packets, after.outbox.sent = before.outbox.sent ++ packets ∧ ∀ out ∈ packets, ∃ here next,
      Steps action before here ∧ Gives action here next out ∧ Steps action next after := by
  induction steps with
  | refl =>
    refine ⟨[], (List.append_nil _).symm, fun out member => ?_⟩
    cases member
  | @tail middle last earlier step ih =>
    obtain ⟨packets, sent, given⟩ := ih
    have later : ∀ out ∈ packets, ∃ here next, Steps action before here ∧
        Gives action here next out ∧ Steps action next last := by
      intro out member
      obtain ⟨here, next, reached, gives, rest⟩ := given out member
      exact ⟨here, next, reached, gives, rest.tail step⟩
    rcases step.gives with same | ⟨packet, gives, more⟩
    · exact ⟨packets, by rw [same, sent], later⟩
    · refine ⟨packets ++ [packet], by rw [more, sent, List.append_assoc], fun out member => ?_⟩
      rcases List.mem_append.mp member with old | new
      · exact later out old
      · rw [List.mem_singleton.mp new]
        exact ⟨_, _, earlier, gives, .refl⟩

/-- What begins an action leaves the entries and the store alone, and only a
collection takes packets away. -/
theorem begun_eq (action : Action) : ∃ faces fib deadNonces strategies timers outbox,
    forwarder.begun action =
      { forwarder with faces, fib, deadNonces, strategies, timers, outbox } ∧
    ((∀ face wanted, action ≠ .collect face wanted) → outbox = forwarder.outbox) := by
  cases action with
  | addReservedFace =>
    simp only [begun, act, addReservedFace]
    split <;> exact ⟨_, _, _, _, _, _, rfl, fun _ => rfl⟩
  | removeFace =>
    simp only [begun]
    split <;> exact ⟨_, _, _, _, _, _, rfl, fun _ => rfl⟩
  | fireNext =>
    simp only [begun]
    split <;> exact ⟨_, _, _, _, _, _, rfl, fun _ => rfl⟩
  | passTime =>
    simp only [begun, act]
    split <;> exact ⟨_, _, _, _, _, _, rfl, fun _ => rfl⟩
  | collect face wanted =>
    exact ⟨_, _, _, _, _, _, rfl, fun other => absurd rfl (other face wanted)⟩
  | _ => exact ⟨_, _, _, _, _, _, rfl, fun _ => rfl⟩

theorem pit_begun (action : Action) : (forwarder.begun action).pit = forwarder.pit := by
  obtain ⟨_, _, _, _, _, _, same, _⟩ := forwarder.begun_eq action
  rw [same]

theorem contentStore_begun (action : Action) :
    (forwarder.begun action).contentStore = forwarder.contentStore := by
  obtain ⟨_, _, _, _, _, _, same, _⟩ := forwarder.begun_eq action
  rw [same]

theorem filed_begun (filed : forwarder.pit.Filed) (action : Action) :
    (forwarder.begun action).pit.Filed := by
  rw [pit_begun]
  exact filed

/-- All through an action, downstreams wait for the names of their entries. -/
theorem Sound.named (sound : Sound forwarder) {here : Forwarder}
    (steps : Steps action (forwarder.begun action) here) {entry : PitEntry}
    (found : here.pit.get? id = some entry) {record : InRecord} (member : record ∈ entry.inRecords) :
    record.interest.name = entry.name := by
  refine Steps.entries steps (filed_begun sound.matched.filed action) ?_
    (fun _ edit named => edit.named named) ?_ found record member
  · exact fun id name record member => by cases member
  · intro id entry old record member
    rw [pit_begun] at old
    exact (sound.recorded old).named member

/-- Whatever an action sends goes out in one of its steps. -/
theorem gives_of_sends (filed : forwarder.pit.Filed) {out : FaceId × Packet}
    (sent : out ∈ forwarder.sends action) :
    ∃ here next, Steps action (forwarder.begun action) here ∧ Gives action here next out ∧
      Steps action next (forwarder.act action) := by
  obtain ⟨packets, gained, given⟩ := Steps.gives (act_steps filed action)
  have same : (forwarder.begun action).outbox = forwarder.outbox := by
    obtain ⟨_, _, _, _, _, _, begins, kept⟩ := forwarder.begun_eq action
    rw [begins]
    refine kept fun face wanted collects => ?_
    rw [collects] at sent
    cases sent
  rw [same] at gained
  exact given out (mem_sends sent gained)

/-- A forwarder starts with no face, no route and no pending Interest. -/
theorem eq_of_withParts {settings : Settings} {contentStore : ContentStore} {counters : Counters}
    {nonces : NonceSource} {start : Forwarder}
    (made : withParts settings contentStore counters nonces = .ok start) :
    ∃ strategies deadNonces, start =
      { settings, contentStore, strategies, counters, nonces, deadNonces } := by
  unfold withParts at made
  split at made
  · cases made
  · cases made
    exact ⟨_, _, rfl⟩

end Forwarder

end NamedData
