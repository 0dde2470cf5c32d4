import NamedData.Proofs.Upkeep

namespace NamedData

/-- One entry is gone, with its timers, and nothing that concerns another entry
has changed. -/
structure Ended (id : PitId) (before after : Forwarder) : Prop where
  change : Local id before after
  matched : Matched after.pit after.timers
  gone : after.pit.get? id = none

/-- What is left of an entry when a face goes away, if anything: without its
last downstream the entry goes too. -/
def PitEntry.forget (entry : PitEntry) (face : FaceId) : Option PitEntry :=
  if !entry.inRecords.isEmpty && (entry.deleteInRecord face).inRecords.isEmpty then none
  else some ((entry.deleteInRecord face).deleteOutRecord face)

theorem PitEntry.forget_forget {entry rest : PitEntry} {face : FaceId}
    (kept : entry.forget face = some rest) : rest.forget face = some rest := by
  unfold forget at kept
  split at kept
  · cases kept
  · cases kept
    have ins : (entry.inRecords.filter (·.face != face)).filter (·.face != face) =
      entry.inRecords.filter (·.face != face) := by simp [List.filter_filter]
    have outs : (entry.outRecords.filter (·.face != face)).filter (·.face != face) =
      entry.outRecords.filter (·.face != face) := by simp [List.filter_filter]
    simp [forget, deleteInRecord, deleteOutRecord, ins, outs]

theorem FaceTable.contains_remove (table : FaceTable) (gone face : FaceId) :
    (table.remove gone).contains face = (face != gone && table.contains face) := by
  obtain ⟨faces, added⟩ := table
  show (((faces.filter (·.1 != gone)).find? (·.1 == face)).map (·.2)).isSome =
    (face != gone && ((faces.find? (·.1 == face)).map (·.2)).isSome)
  induction faces with
  | nil => simp
  | cons first rest ih =>
    by_cases here : first.1 = face <;> by_cases leaves : first.1 = gone <;>
      simp_all

namespace Forwarder

variable {forwarder : Forwarder}

/-- The nonces of an entry that were sent out, on one face or on all. -/
def outKeys (entry : PitEntry) (outFace : Option FaceId) : List RequestKey :=
  (entry.outRecords.filter fun record => outFace.all (record.face == ·)).map
    fun record => (entry.name, record.nonce)

/-- Only the nonces of the entry are noted, and those of an unsatisfied one are
noted always. -/
theorem deadNonces_noteDeadNonces {id : PitId} {entry : PitEntry}
    (found : forwarder.pit.get? id = some entry) (satisfied : Bool) (freshness : Option Duration)
    (outFace : Option FaceId) :
    (forwarder.noteDeadNonces id satisfied freshness outFace).deadNonces =
      forwarder.deadNonces.addAll (if forwarder.mustNoteNonces entry satisfied freshness then
        outKeys entry outFace else []) forwarder.now := by
  simp only [noteDeadNonces, found]
  split
  · rw [DeadNonceList.addAll, outKeys, List.foldl_map]
  · rfl

theorem noted_noteDeadNonces (id : PitId) (satisfied : Bool) (freshness : Option Duration)
    (outFace : Option FaceId) : ∃ keys,
      (forwarder.noteDeadNonces id satisfied freshness outFace).deadNonces =
        forwarder.deadNonces.addAll keys forwarder.now := by
  cases found : forwarder.pit.get? id with
  | none =>
    refine ⟨[], ?_⟩
    simp only [noteDeadNonces, found]
    rfl
  | some entry => exact ⟨_, deadNonces_noteDeadNonces found satisfied freshness outFace⟩

theorem noteDeadNonces_eq (id : PitId) (satisfied : Bool) (freshness : Option Duration)
    (outFace : Option FaceId) : forwarder.noteDeadNonces id satisfied freshness outFace =
      { forwarder with
        deadNonces := (forwarder.noteDeadNonces id satisfied freshness outFace).deadNonces } := by
  unfold noteDeadNonces
  split
  · rfl
  · split <;> rfl

theorem timers_cancelTimers_congr {other : Forwarder} (pit : other.pit = forwarder.pit)
    (timers : other.timers = forwarder.timers) (id : PitId) :
    (other.cancelTimers id).timers = (forwarder.cancelTimers id).timers := by
  unfold cancelTimers
  rw [pit]
  split
  · exact timers
  · rename_i entry _
    show (stopTimer _ _).timers = (stopTimer _ _).timers
    cases entry.stragglerTimer <;> cases entry.unsatisfyTimer <;> simp only [stopTimer, timers]

theorem finalize_of_none {id : PitId} (missing : forwarder.pit.get? id = none) (satisfied : Bool)
    (freshness : Option Duration) : forwarder.finalize id satisfied freshness = forwarder := by
  simp only [finalize, missing]

theorem finalize_eq {id : PitId} {entry : PitEntry} (found : forwarder.pit.get? id = some entry)
    (satisfied : Bool) (freshness : Option Duration) :
    forwarder.finalize id satisfied freshness =
      { forwarder with
        deadNonces := (forwarder.noteDeadNonces id satisfied freshness none).deadNonces
        counters := (forwarder.finalize id satisfied freshness).counters
        timers := (forwarder.cancelTimers id).timers
        pit := (forwarder.pit.modify id PitEntry.disarmed).erase id } := by
  have same := forwarder.noteDeadNonces_eq id satisfied freshness none
  obtain ⟨noted, isNoted⟩ : ∃ noted, noted = forwarder.noteDeadNonces id satisfied freshness none :=
    ⟨_, rfl⟩
  simp only [finalize, found]
  rw [← isNoted] at same ⊢
  rw [@cancelTimers_eq _ id entry (by rw [same]; exact found)]
  rw [@timers_cancelTimers_congr forwarder _ (by rw [same]; rfl) (by rw [same]; rfl) id]
  rw [same]
  rfl

/-- The end of an entry is counted once, as the one or the other. -/
theorem counters_finalize {id : PitId} {entry : PitEntry}
    (found : forwarder.pit.get? id = some entry) (satisfied : Bool) (freshness : Option Duration) :
    (forwarder.finalize id satisfied freshness).counters =
      if satisfied then { forwarder.counters with
        satisfiedInterests := forwarder.counters.satisfiedInterests + 1 }
      else { forwarder.counters with
        unsatisfiedInterests := forwarder.counters.unsatisfiedInterests + 1 } := by
  have same := forwarder.noteDeadNonces_eq id satisfied freshness none
  obtain ⟨noted, isNoted⟩ : ∃ noted, noted = forwarder.noteDeadNonces id satisfied freshness none :=
    ⟨_, rfl⟩
  simp only [finalize, found]
  rw [← isNoted] at same ⊢
  rw [@cancelTimers_eq _ id entry (by rw [same]; exact found), same]
  rfl

theorem get?_finalize (id : PitId) (satisfied : Bool) (freshness : Option Duration) (other : PitId) :
    (forwarder.finalize id satisfied freshness).pit.get? other =
      if other = id then none else forwarder.pit.get? other := by
  cases found : forwarder.pit.get? id with
  | none =>
    rw [finalize_of_none found]
    split
    · rename_i same
      rw [same, found]
    · rfl
  | some entry =>
    rw [finalize_eq found]
    show ((forwarder.pit.modify id _).erase id).get? other = _
    rw [Pit.get?_erase, Pit.get?_modify]
    split <;> rfl

theorem local_finalize {id : PitId} (matched : MatchedBut id forwarder.pit forwarder.timers)
    (satisfied : Bool) (freshness : Option Duration) :
    Local id forwarder (forwarder.finalize id satisfied freshness) := by
  cases found : forwarder.pit.get? id with
  | none => rw [finalize_of_none found]; exact .refl id forwarder
  | some entry =>
    have stopped := local_cancelTimers matched
    refine ⟨⟨?_, ?_, ?_, ?_, ?_⟩, fun other different => ?_, ?_⟩
    · rw [finalize_eq found]; exact stopped.now
    · rw [finalize_eq found]
    · rw [finalize_eq found]
    · rw [finalize_eq found]
      show forwarder.pit.created ≤ ((forwarder.pit.modify id PitEntry.disarmed).erase id).created
      rw [Pit.created_erase]
      exact Nat.le_refl _
    · rw [finalize_eq found]
      exact noted_noteDeadNonces id satisfied freshness none
    · rw [get?_finalize, if_neg different]
    · rw [finalize_eq found]; exact stopped.timers

theorem matched_finalize {id : PitId} (matched : MatchedBut id forwarder.pit forwarder.timers)
    (satisfied : Bool) (freshness : Option Duration) :
    Matched (forwarder.finalize id satisfied freshness).pit
      (forwarder.finalize id satisfied freshness).timers := by
  cases found : forwarder.pit.get? id with
  | none =>
    rw [finalize_of_none found]
    refine ⟨matched.filed, matched.numbered, matched.live, ?_⟩
    intro other entry slot timer here holds
    have different : other ≠ id := fun same => by rw [same, found] at here; cases here
    exact matched.armed different here holds
  | some entry =>
    have change := local_finalize matched satisfied freshness
    -- A timer of the entry would be held by one of its slots, and those were stopped.
    have gone : ∀ (timer : TimerId) (event : TimerEvent), event.entry = id →
        (forwarder.finalize id satisfied freshness).timers.running[timer]? ≠ some event := by
      intro timer event mine running
      rw [finalize_eq found] at running
      have running' : (forwarder.cancelTimers id).timers.running[timer]? = some event := running
      rw [running_cancelTimers found] at running'
      split at running'
      · cases running'
      · rename_i kept
        obtain ⟨before, atOwner, holds⟩ := matched.live running'
        rw [mine, found] at atOwner
        cases atOwner
        exact kept (PitEntry.holds_iff.mpr ⟨_, holds⟩)
    refine ⟨?_, ?_, ?_, ?_⟩
    · rw [finalize_eq found]
      exact (matched.filed.modify PitEntry.keeps_disarmed).erase id
    · rw [finalize_eq found]
      exact numbered_cancelTimers matched.numbered id
    · intro timer event running
      by_cases mine : event.entry = id
      · exact absurd running (gone timer event mine)
      · obtain ⟨owner, atOwner, holds⟩ := matched.live ((change.timers timer event mine).mp running)
        exact ⟨owner, (change.entries _ mine).trans atOwner, holds⟩
    · intro other owner slot timer here holds
      have different : other ≠ id := fun same => by
        rw [same, get?_finalize, if_pos rfl] at here
        cases here
      rw [change.entries other different] at here
      obtain ⟨event, running, isOwner, kind⟩ := matched.armed different here holds
      exact ⟨event, (change.timers timer event (by rw [isOwner]; exact different)).mpr running,
        isOwner, kind⟩

theorem running_finalize {id : PitId} {satisfied : Bool} {freshness : Option Duration}
    {timer : TimerId} {event : TimerEvent}
    (running : (forwarder.finalize id satisfied freshness).timers.running[timer]? = some event) :
    forwarder.timers.running[timer]? = some event := by
  cases found : forwarder.pit.get? id with
  | none =>
    rw [finalize_of_none found] at running
    exact running
  | some entry =>
    have running' : (forwarder.cancelTimers id).timers.running[timer]? = some event := by
      rw [finalize_eq found] at running
      exact running
    rw [running_cancelTimers found] at running'
    split at running'
    · cases running'
    · exact running'

theorem ended_finalize {id : PitId} (matched : MatchedBut id forwarder.pit forwarder.timers)
    (satisfied : Bool) (freshness : Option Duration) :
    Ended id forwarder (forwarder.finalize id satisfied freshness) :=
  ⟨local_finalize matched satisfied freshness, matched_finalize matched satisfied freshness, by
    rw [get?_finalize, if_pos rfl]⟩

theorem bumpAll_eq (name : Name) (penalty : Cost) (records : List OutRecord) :
    ∃ fib, records.foldl (fun forwarder record => forwarder.bumpCost name record.face penalty)
      forwarder = { forwarder with fib } := by
  induction records generalizing forwarder with
  | nil => exact ⟨forwarder.fib, rfl⟩
  | cons record rest ih =>
    obtain ⟨fib, same⟩ := @ih (forwarder.bumpCost name record.face penalty)
    exact ⟨fib, same⟩

theorem beforeExpireInterest_eq (strategy : Strategy) (id : PitId) :
    ∃ fib, strategy.beforeExpireInterest forwarder id = { forwarder with fib } := by
  cases strategy with
  | multicast => exact ⟨forwarder.fib, rfl⟩
  | bestRoute penalty =>
    simp only [Strategy.beforeExpireInterest]
    split
    · exact ⟨forwarder.fib, rfl⟩
    · exact bumpAll_eq _ _ _

/-- An entry that nobody waits for any more ends like one that is given up,
after its strategy may have changed the routes. -/
theorem expire_eq {id : PitId} {entry : PitEntry} (found : forwarder.pit.get? id = some entry) :
    ∃ fib, forwarder.expire id = ({ forwarder with fib }.updateEntry id
      fun entry => { entry with unsatisfyTimer := none }).finalize id false none := by
  obtain ⟨fib, same⟩ := (forwarder.updateEntry id
    fun entry => { entry with unsatisfyTimer := none }).beforeExpireInterest_eq
      (forwarder.strategies.effective entry.name) id
  refine ⟨fib, ?_⟩
  simp only [expire, found]
  exact congrArg (finalize · id false none) same

theorem now_finalize (id : PitId) (satisfied : Bool) (freshness : Option Duration) :
    (forwarder.finalize id satisfied freshness).now = forwarder.now := by
  cases found : forwarder.pit.get? id with
  | none => rw [finalize_of_none found]
  | some entry =>
    rw [finalize_eq found]
    exact now_cancelTimers id

/-- What a timer sets off takes no time. -/
theorem now_fire (event : TimerEvent) : (forwarder.fire event).now = forwarder.now := by
  cases event with
  | straggler id satisfied freshness => exact now_finalize id satisfied freshness
  | unsatisfy id =>
    show (forwarder.expire id).now = _
    cases found : forwarder.pit.get? id with
    | none => simp only [expire, found]
    | some entry =>
      obtain ⟨fib, same⟩ := expire_eq found
      rw [same, now_finalize]
      rfl

variable {limit : Instant} {timer : Timer TimerEvent} {rest : Timers TimerEvent}

/-- A timer never goes off for an entry that is gone. -/
theorem popped_owner (matched : Matched forwarder.pit forwarder.timers)
    (popped : forwarder.timers.popDue? limit = some (timer, rest)) :
    ∃ entry, forwarder.pit.get? timer.payload.entry = some entry ∧
      entry.timer timer.payload.slot = some timer.id :=
  matched.live (Timers.popDue?_eq_some popped).1

theorem popped_but (matched : Matched forwarder.pit forwarder.timers)
    (popped : forwarder.timers.popDue? limit = some (timer, rest)) :
    MatchedBut timer.payload.entry forwarder.pit rest where
  filed := matched.filed
  numbered := by
    rw [(Timers.popDue?_eq_some popped).2.2]
    exact matched.numbered.cancel timer.id
  live running := by
    rw [Timers.running_popped popped] at running
    split at running
    · cases running
    · exact matched.live running
  armed different found holds := by
    obtain ⟨event, running, owner, kind⟩ := matched.armed found holds
    refine ⟨event, ?_, owner, kind⟩
    rw [Timers.running_popped popped, if_neg, running]
    intro same
    rw [same, (Timers.popDue?_eq_some popped).1] at running
    cases running
    exact different owner.symm
  own found holds running := by
    rw [Timers.running_popped popped] at running
    split at running
    · cases running
    · exact (matched.but _).own found holds running

theorem get?_expiring {id : PitId} {entry : PitEntry}
    (found : forwarder.pit.get? id = some entry) :
    (forwarder.updateEntry id fun entry => { entry with unsatisfyTimer := none }).pit.get? id =
      some { entry with unsatisfyTimer := none } := by
  rw [get?_updateEntry, found]
  rfl

/-- Once the timer that ends the wait has gone off, its slot is empty. -/
theorem but_expiring {id : PitId} (matched : Matched forwarder.pit forwarder.timers)
    (popped : forwarder.timers.popDue? limit = some (timer, rest))
    (kind : timer.payload = .unsatisfy id) (fib : Fib) :
    MatchedBut id ({ forwarder with timers := rest, fib }.updateEntry id
      fun entry => { entry with unsatisfyTimer := none }).pit rest := by
  have but := popped_but matched popped
  obtain ⟨entry, found, holds⟩ := popped_owner matched popped
  rw [kind] at but found holds
  have kept : PitEntry.Keeps ({ · with unsatisfyTimer := none }) := fun _ => ⟨rfl, rfl⟩
  have emptied := @get?_expiring { forwarder with timers := rest, fib } id entry found
  have others : Local id { forwarder with timers := rest, fib } ({ forwarder with
    timers := rest, fib }.updateEntry id fun entry => { entry with unsatisfyTimer := none }) :=
    local_updateEntry
  refine ⟨but.filed.modify kept, but.numbered, ?_, ?_, ?_⟩
  · intro other event running
    obtain ⟨owner, atOwner, stays⟩ := but.live running
    by_cases mine : event.entry = id
    · rw [mine] at atOwner ⊢
      rw [show forwarder.pit.get? id = some entry from found] at atOwner
      cases atOwner
      refine ⟨_, emptied, ?_⟩
      cases event with
      | straggler _ _ _ => exact stays
      | unsatisfy _ =>
        -- The slot held the timer that has just gone off.
        have same : some other = some timer.id := stays.symm.trans holds
        rw [Timers.running_popped popped, if_pos (Option.some.inj same)] at running
        cases running
    · exact ⟨owner, (others.entries _ mine).trans atOwner, stays⟩
  · intro other owner slot held different atOwner
    rw [others.entries other different] at atOwner
    exact but.armed different atOwner
  · intro owner slot held event atOwner stays running
    rw [emptied] at atOwner
    cases atOwner
    cases slot with
    | unsatisfy => cases stays
    | straggler => exact but.own found (show entry.timer .straggler = some held from stays) running

/-- A timer that goes off ends its entry and does nothing else to the table. -/
theorem ended_fire (matched : Matched forwarder.pit forwarder.timers)
    (popped : forwarder.timers.popDue? limit = some (timer, rest)) :
    Ended timer.payload.entry { forwarder with timers := rest }
      ({ forwarder with timers := rest }.fire timer.payload) := by
  cases kind : timer.payload with
  | straggler id satisfied freshness =>
    have but := popped_but matched popped
    rw [kind] at but
    exact @ended_finalize { forwarder with timers := rest } id but satisfied freshness
  | unsatisfy id =>
    obtain ⟨entry, found, _⟩ := popped_owner matched popped
    rw [kind] at found
    obtain ⟨fib, same⟩ := @expire_eq { forwarder with timers := rest } id entry found
    have ended := ended_finalize (but_expiring matched popped kind fib) false none
    have emptied : Local id { forwarder with timers := rest, fib } ({ forwarder with
      timers := rest, fib }.updateEntry id fun entry => { entry with unsatisfyTimer := none }) :=
      local_updateEntry
    show Ended id _ (expire _ id)
    rw [same]
    have routed : Local id { forwarder with timers := rest } { forwarder with timers := rest, fib } :=
      .of_same id rfl rfl rfl rfl rfl
    exact ⟨(routed.trans emptied).trans ended.change, ended.matched, ended.gone⟩

variable {face : FaceId}

theorem forgetFace_cases (face : FaceId) (id : PitId) :
    (forwarder.pit.get? id = none ∧ forgetFace face forwarder id = forwarder) ∨
      ∃ entry forgotten, forwarder.pit.get? id = some entry ∧
        forgotten = forwarder.updateEntry id
          (fun entry => (entry.deleteInRecord face).deleteOutRecord face) ∧
        ((entry.forget face = none ∧ forgetFace face forwarder id =
            forgotten.finalize id false none) ∨
          entry.forget face = some ((entry.deleteInRecord face).deleteOutRecord face) ∧
            forgetFace face forwarder id = forgotten) := by
  unfold forgetFace PitEntry.forget
  split
  · rename_i missing
    exact Or.inl ⟨missing, rfl⟩
  · rename_i entry found
    refine Or.inr ⟨entry, _, found, rfl, ?_⟩
    split
    · exact Or.inl ⟨rfl, rfl⟩
    · exact Or.inr ⟨rfl, rfl⟩

theorem forgetFace_spec (matched : Matched forwarder.pit forwarder.timers) (face : FaceId)
    (id : PitId) :
    Local id forwarder (forgetFace face forwarder id) ∧
      Matched (forgetFace face forwarder id).pit (forgetFace face forwarder id).timers ∧
      (forgetFace face forwarder id).pit.get? id =
        (forwarder.pit.get? id).bind (·.forget face) ∧
      ∀ {timer : TimerId} {event : TimerEvent},
        (forgetFace face forwarder id).timers.running[timer]? = some event →
        forwarder.timers.running[timer]? = some event := by
  have kept : PitEntry.Keeps fun entry => (entry.deleteInRecord face).deleteOutRecord face :=
    fun _ => ⟨rfl, rfl⟩
  have change : Local id forwarder (forwarder.updateEntry id
    fun entry => (entry.deleteInRecord face).deleteOutRecord face) := local_updateEntry
  have matched' := @matched_updateEntry forwarder matched id _ kept fun _ slot => by cases slot <;> rfl
  rcases forwarder.forgetFace_cases face id with
    ⟨missing, same⟩ | ⟨entry, forgotten, found, rfl, ⟨left, same⟩ | ⟨left, same⟩⟩
  · rw [same, missing]
    exact ⟨.refl id forwarder, matched, rfl, fun running => running⟩
  · have ended := ended_finalize (matched'.but id) false none
    rw [same, found, Option.bind_some, left]
    exact ⟨change.trans ended.change, ended.matched, ended.gone, running_finalize⟩
  · rw [same, get?_updateEntry, found, Option.bind_some, left]
    exact ⟨change, matched', rfl, fun running => running⟩

theorem forgetAll_spec (matched : Matched forwarder.pit forwarder.timers) (face : FaceId)
    (ids : List PitId) :
    Matched (ids.foldl (forgetFace face) forwarder).pit (ids.foldl (forgetFace face) forwarder).timers ∧
      Steady forwarder (ids.foldl (forgetFace face) forwarder) ∧
      (∀ {timer : TimerId} {event : TimerEvent},
        (ids.foldl (forgetFace face) forwarder).timers.running[timer]? = some event →
        forwarder.timers.running[timer]? = some event) ∧
      ∀ id, (ids.foldl (forgetFace face) forwarder).pit.get? id =
        if id ∈ ids then (forwarder.pit.get? id).bind (·.forget face) else forwarder.pit.get? id := by
  induction ids generalizing forwarder with
  | nil => exact ⟨matched, .refl forwarder, fun running => running, fun id => by simp⟩
  | cons first rest ih =>
    obtain ⟨change, matched', here, fewer⟩ := forgetFace_spec matched face first
    obtain ⟨matched'', steady, fewer', entries⟩ := ih matched'
    refine ⟨matched'', change.toSteady.trans steady, fun running => fewer (fewer' running),
      fun id => ?_⟩
    rw [List.foldl_cons, entries]
    by_cases mine : id = first
    · -- An entry that is listed again is left as it is.
      rw [mine, here, if_pos List.mem_cons_self]
      split
      · cases forwarder.pit.get? first with
        | none => rfl
        | some entry =>
          rw [Option.bind_some]
          cases left : entry.forget face with
          | none => rfl
          | some after => exact PitEntry.forget_forget left
      · rfl
    · rw [change.entries id mine]
      simp only [List.mem_cons, mine, false_or]

/-- Removing a face takes its records out of every entry, and the entries that
lose their last downstream this way are gone. -/
theorem removeFace_spec {after : Forwarder} (matched : Matched forwarder.pit forwarder.timers)
    (removed : forwarder.removeFace face = .ok after) :
    Matched after.pit after.timers ∧
      Steady { forwarder with
        faces := forwarder.faces.remove face, fib := forwarder.fib.removeFace face } after ∧
      (∀ {timer : TimerId} {event : TimerEvent}, after.timers.running[timer]? = some event →
        forwarder.timers.running[timer]? = some event) ∧
      ∀ id, after.pit.get? id = (forwarder.pit.get? id).bind (·.forget face) := by
  unfold removeFace at removed
  split at removed
  · cases removed
    obtain ⟨matched', steady, fewer, entries⟩ := @forgetAll_spec { forwarder with
      faces := forwarder.faces.remove face, fib := forwarder.fib.removeFace face } matched face
        forwarder.pit.ids
    refine ⟨matched', steady, fewer, fun id => (entries id).trans ?_⟩
    split
    · rfl
    · rename_i absent
      cases missing : forwarder.pit.get? id with
      | none => rfl
      | some entry => exact absurd (Pit.mem_ids.mpr ⟨entry, missing⟩) absent
  · cases removed

end Forwarder

end NamedData
