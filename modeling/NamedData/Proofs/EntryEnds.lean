import NamedData.Proofs.Bookkeeping
import NamedData.Proofs.NonceMemory

namespace NamedData

theorem Pit.length_ids (pit : Pit) : pit.ids.length = pit.size := Std.ExtTreeMap.length_keys

theorem Pit.size_modify (pit : Pit) (id : PitId) (change : PitEntry → PitEntry) :
    (pit.modify id change).size = pit.size := Std.ExtTreeMap.size_modify

/-- A table grows by the entries that are made. -/
theorem Pit.Filed.insert_balance {pit : Pit} (filed : pit.Filed) (name : Name) :
    (pit.insert name).2.size + pit.created = pit.size + (pit.insert name).2.created := by
  cases atName : pit.find? name with
  | some id => rw [Pit.insert_of_find? atName]
  | none =>
    have fresh : pit.get? ⟨pit.created + 1, name⟩ = none := filed.get?_of_lt (Nat.lt_succ_self _)
    have absent : pit.entries.contains ⟨pit.created + 1, name⟩ = false := by
      rw [Std.ExtTreeMap.contains_eq_isSome_getElem?, ← Pit.get?, fresh]
      rfl
    rw [Pit.insert_of_none atName]
    simp only [Pit.size, Std.ExtTreeMap.size_insert, absent]
    simp
    omega

namespace Forwarder

/-- The ends of entries that were counted, as satisfied and as unsatisfied. -/
def endCounts (forwarder : Forwarder) : Nat × Nat :=
  (forwarder.counters.satisfiedInterests, forwarder.counters.unsatisfiedInterests)

/-- The entries that an action makes. -/
def opened (forwarder : Forwarder) (action : Action) : List PitId :=
  (forwarder.act action).pit.ids.filter fun id => (forwarder.pit.get? id).isNone

/-- The entries that an action erases. -/
def closed (forwarder : Forwarder) (action : Action) : List PitId :=
  forwarder.pit.ids.filter fun id => ((forwarder.act action).pit.get? id).isNone

/-- The timer goes off that sweeps a satisfied entry away. -/
def sweeps (forwarder : Forwarder) : Action → Bool
  | .fireNext limit => (forwarder.timers.popDue? limit).any fun due =>
    match due.1.payload with
    | .straggler _ satisfied _ => satisfied
    | .unsatisfy _ => false
  | _ => false

/-- How many entries a run makes. -/
def openings (forwarder : Forwarder) : List Action → Nat
  | [] => 0
  | action :: rest => (forwarder.opened action).length + (forwarder.act action).openings rest

/-- The entries that a run erases, one after the other, and whether each of them
ends as a satisfied one. -/
def endings (forwarder : Forwarder) : List Action → List (PitId × Bool)
  | [] => []
  | action :: rest =>
    (forwarder.closed action).map (·, forwarder.sweeps action) ++
      (forwarder.act action).endings rest

section Counters

variable {forwarder : Forwarder} {id : PitId} {face : FaceId}

theorem endCounts_cancelTimers : (forwarder.cancelTimers id).endCounts = forwarder.endCounts := by
  obtain ⟨_, _, same⟩ := forwarder.cancelTimers_frame id
  rw [same]
  rfl

theorem endCounts_setUnsatisfyTimer :
    (forwarder.setUnsatisfyTimer id).endCounts = forwarder.endCounts := by
  obtain ⟨_, _, same⟩ := forwarder.setUnsatisfyTimer_frame id
  rw [same]
  rfl

theorem endCounts_setStragglerTimer (satisfied : Bool) (freshness : Option Duration) :
    (forwarder.setStragglerTimer id satisfied freshness).endCounts = forwarder.endCounts := by
  obtain ⟨_, _, same⟩ := forwarder.setStragglerTimer_frame id satisfied freshness
  rw [same]
  rfl

theorem endCounts_sendInterest (hint : Option String) (newNonce : Bool) :
    (forwarder.sendInterest id face hint newNonce).endCounts = forwarder.endCounts := by
  unfold sendInterest
  split
  · rfl
  · split
    · rfl
    · split
      · rfl
      · split
        · rfl
        · split
          · rfl
          · rw [emitInterest_eq]
            rfl

theorem endCounts_reject : (forwarder.reject id).endCounts = forwarder.endCounts := by
  unfold reject
  split
  · rfl
  · split
    · rfl
    · rw [endCounts_setStragglerTimer, endCounts_cancelTimers]
      rfl

theorem endCounts_afterReceiveInterest (strategy : Strategy) (route : FibEntry) :
    (strategy.afterReceiveInterest forwarder route id).endCounts = forwarder.endCounts :=
  afterReceiveInterest_keeps (fun after => after.endCounts = forwarder.endCounts)
    (fun _ _ same _ => (endCounts_sendInterest _ _).trans same)
    (fun _ same _ => endCounts_reject.trans same) strategy route rfl

theorem endCounts_sendData (data : Data) : (forwarder.sendData data face).endCounts =
    forwarder.endCounts := by
  unfold sendData
  split
  · rfl
  · split <;> rfl

theorem endCounts_askOnward (interest : Interest) :
    (forwarder.askOnward id face interest).endCounts = forwarder.endCounts := by
  rw [askOnward, endCounts_afterReceiveInterest, endCounts_setUnsatisfyTimer]
  rfl

theorem endCounts_answerFromCache (interest : Interest) (data : Data) :
    (forwarder.answerFromCache id face interest data).endCounts = forwarder.endCounts := by
  rw [answerFromCache, endCounts_sendData, endCounts_setStragglerTimer]
  rfl

theorem endCounts_handleRequest (interest : Interest) :
    (forwarder.handleRequest face interest).endCounts = forwarder.endCounts := by
  unfold handleRequest
  dsimp only
  split
  · rw [endCounts_askOnward, endCounts_cancelTimers]
    rfl
  · split
    · rw [endCounts_answerFromCache]
      exact endCounts_cancelTimers
    · rw [endCounts_askOnward]
      exact endCounts_cancelTimers

theorem endCounts_receiveInterest (interest : Interest) :
    (forwarder.receiveInterest face interest).endCounts = forwarder.endCounts := by
  unfold receiveInterest
  dsimp only
  split
  case h_6 => exact endCounts_setUnsatisfyTimer
  case h_7 => exact endCounts_handleRequest _
  all_goals rfl

theorem endCounts_satisfy (data : Data) :
    (satisfy face data forwarder id).endCounts = forwarder.endCounts := by
  unfold satisfy
  dsimp only
  split
  · exact endCounts_cancelTimers
  · rw [endCounts_setStragglerTimer]
    show (noteDeadNonces _ _ _ _ _).endCounts = _
    rw [noteDeadNonces_eq]
    exact endCounts_cancelTimers

theorem endCounts_satisfyAll (data : Data) (ids : List PitId) :
    (ids.foldl (satisfy face data) forwarder).endCounts = forwarder.endCounts := by
  induction ids generalizing forwarder with
  | nil => rfl
  | cons first rest ih => exact ih.trans (endCounts_satisfy data)

theorem endCounts_sendAll (data : Data) (faces : List FaceId) :
    (faces.foldl (fun forwarder face => forwarder.sendData data face) forwarder).endCounts =
      forwarder.endCounts := by
  induction faces generalizing forwarder with
  | nil => rfl
  | cons first rest ih => exact ih.trans (endCounts_sendData data)

theorem endCounts_receiveUnsolicited (data : Data) :
    (forwarder.receiveUnsolicited face data).endCounts = forwarder.endCounts := by
  unfold receiveUnsolicited
  dsimp only
  split <;> rfl

theorem endCounts_receiveData (data : Data) :
    (forwarder.receiveData face data).endCounts = forwarder.endCounts := by
  unfold receiveData
  dsimp only
  split
  · rfl
  · split
    · rfl
    · split
      · exact endCounts_receiveUnsolicited _
      · exact (endCounts_sendAll _ _).trans (endCounts_satisfyAll _ _)

end Counters

variable {forwarder before after : Forwarder} {action : Action} {id : PitId}

theorem endCounts_lasting (lasting : ¬ Ends action) :
    (forwarder.act action).endCounts = forwarder.endCounts := by
  cases action with
  | addReservedFace id face =>
    simp only [act, addReservedFace]
    split <;> rfl
  | removeFace face => exact absurd (.removes face) lasting
  | receiveInterest face interest => exact endCounts_receiveInterest interest
  | receiveData face data => exact endCounts_receiveData data
  | receiveUnsolicited face data => exact endCounts_receiveUnsolicited data
  | sendInterest id face hint newNonce => exact endCounts_sendInterest hint newNonce
  | reject id => exact endCounts_reject
  | sendData data face => exact endCounts_sendData data
  | fireNext limit => exact absurd (.fires limit) lasting
  | passTime time =>
    simp only [act]
    split <;> rfl
  | _ => rfl

/-- While no entry ends, the table grows with the number of entries made. -/
theorem Step.balance (step : Step action before after) (filed : before.pit.Filed)
    (lasting : ¬ Ends action) :
    after.pit.size + before.pit.created = before.pit.size + after.pit.created := by
  cases step with
  | opens => exact filed.insert_balance _
  | retimes => exact congrArg (· + _) (Pit.size_modify _ _ _)
  | joins => exact congrArg (· + _) (Pit.size_modify _ _ _)
  | asks =>
    rw [emitInterest_eq]
    exact congrArg (· + _) (Pit.size_modify _ _ _)
  | answers => rw [sendData_eq]
  | notes => rw [noteDeadNonces_eq]
  | clears => exact congrArg (· + _) (Pit.size_modify _ _ _)
  | settles => exact congrArg (· + _) (Pit.size_modify _ _ _)
  | forgets => exact congrArg (· + _) (Pit.size_modify _ _ _)
  | erases _ cause => exact absurd cause lasting
  | _ => rfl

theorem Steps.balance (steps : Steps action before after) (filed : before.pit.Filed)
    (lasting : ¬ Ends action) :
    after.pit.size + before.pit.created = before.pit.size + after.pit.created := by
  induction steps with
  | refl => rfl
  | tail earlier step ih =>
    have next := step.balance (Steps.filed earlier filed) lasting
    omega

/-- Only an Interest that comes in makes an entry. -/
theorem Step.created_eq (step : Step action before after)
    (other : ∀ source interest, action ≠ .receiveInterest source interest) :
    after.pit.created = before.pit.created := by
  cases step with
  | opens cause => exact absurd cause (other _ _)
  | asks => rw [emitInterest_eq]; rfl
  | answers => rw [sendData_eq]
  | notes => rw [noteDeadNonces_eq]
  | erases => exact Pit.created_erase _
  | _ => rfl

theorem Steps.created_eq (steps : Steps action before after)
    (other : ∀ source interest, action ≠ .receiveInterest source interest) :
    after.pit.created = before.pit.created := by
  induction steps with
  | refl => rfl
  | tail _ step ih => exact (step.created_eq other).trans ih

theorem Steps.stays (steps : Steps action before after) (filed : before.pit.Filed)
    (lasting : ¬ Ends action) {entry : PitEntry} (found : before.pit.get? id = some entry) :
    ∃ entry, after.pit.get? id = some entry := by
  induction steps with
  | refl => exact ⟨entry, found⟩
  | tail earlier step ih =>
    obtain ⟨here, found'⟩ := ih
    have fate := step.fate (Steps.filed earlier filed) id
    rw [found'] at fate
    generalize Pit.get? _ id = next at fate ⊢
    cases fate with
    | kept => exact ⟨_, rfl⟩
    | edited => exact ⟨_, rfl⟩
    | ended _ cause => exact absurd cause lasting

theorem mem_opened : id ∈ forwarder.opened action ↔
    (∃ entry, (forwarder.act action).pit.get? id = some entry) ∧ forwarder.pit.get? id = none := by
  rw [opened, List.mem_filter, Pit.mem_ids, Option.isNone_iff_eq_none]

theorem mem_closed : id ∈ forwarder.closed action ↔
    (∃ entry, forwarder.pit.get? id = some entry) ∧ (forwarder.act action).pit.get? id = none := by
  rw [closed, List.mem_filter, Pit.mem_ids, Option.isNone_iff_eq_none]

theorem closed_of_same (same : forwarder.act action = forwarder) :
    forwarder.closed action = [] := by
  refine List.eq_nil_iff_forall_not_mem.mpr fun id member => ?_
  obtain ⟨⟨entry, found⟩, gone⟩ := mem_closed.mp member
  rw [same, found] at gone
  cases gone

theorem closed_eq_nil (filed : forwarder.pit.Filed) (lasting : ¬ Ends action) :
    forwarder.closed action = [] := by
  refine List.eq_nil_iff_forall_not_mem.mpr fun id member => ?_
  obtain ⟨⟨entry, found⟩, gone⟩ := mem_closed.mp member
  rw [← pit_begun action] at found
  obtain ⟨here, still⟩ := Steps.stays (act_steps filed action) (filed_begun filed action) lasting found
  rw [gone] at still
  cases still

theorem opened_eq_nil (sound : Sound forwarder)
    (other : ∀ source interest, action ≠ .receiveInterest source interest) :
    forwarder.opened action = [] := by
  refine List.eq_nil_iff_forall_not_mem.mpr fun id member => ?_
  obtain ⟨found, missing⟩ := mem_opened.mp member
  obtain ⟨⟨source, interest, cause, _⟩, _⟩ := Makes.made ⟨missing, found⟩ sound.matched.filed
  exact other source interest cause

/-- What is there after an action was there before and stays, or is new. -/
theorem Sound.size_act (sound : Sound forwarder) (action : Action) :
    (forwarder.act action).pit.size + (forwarder.closed action).length =
      forwarder.pit.size + (forwarder.opened action).length := by
  have filed := sound.matched.filed
  have filed' := (sound.act action).matched.filed
  obtain ⟨after, isAfter⟩ : ∃ after, after = forwarder.act action := ⟨_, rfl⟩
  have stayed : (forwarder.act action).pit.ids.Perm
      (forwarder.opened action ++
        forwarder.pit.ids.filter fun id => !((forwarder.act action).pit.get? id).isNone) := by
    refine (List.perm_ext_iff_of_nodup Pit.nodup_ids ?_).mpr fun id => ?_
    · refine List.nodup_append.mpr ⟨Pit.nodup_ids.filter _, Pit.nodup_ids.filter _, ?_⟩
      rintro id new other old rfl
      obtain ⟨_, missing⟩ := mem_opened.mp new
      obtain ⟨entry, found⟩ := Pit.mem_ids.mp (List.mem_of_mem_filter old)
      rw [missing] at found
      cases found
    · rw [List.mem_append, mem_opened, Pit.mem_ids, List.mem_filter, Pit.mem_ids]
      cases found : (forwarder.act action).pit.get? id <;> cases old : forwarder.pit.get? id <;> simp
  have split := List.length_eq_length_filter_add (l := forwarder.pit.ids)
    fun id => ((forwarder.act action).pit.get? id).isNone
  have lengths := stayed.length_eq
  rw [List.length_append, Pit.length_ids] at lengths
  rw [Pit.length_ids] at split
  rw [closed]
  omega

theorem Sound.created_act (sound : Sound forwarder) (action : Action) :
    (forwarder.act action).pit.created =
      forwarder.pit.created + (forwarder.opened action).length := by
  have filed := sound.matched.filed
  by_cases ends : Ends action
  · have other : ∀ source interest, action ≠ .receiveInterest source interest := by
      intro source interest same
      rw [same] at ends
      cases ends
    rw [opened_eq_nil sound other]
    have same := Steps.created_eq (act_steps filed action) other
    rwa [pit_begun] at same
  · have grown := Steps.balance (act_steps filed action) (filed_begun filed action) ends
    have balance := sound.size_act action
    rw [closed_eq_nil filed ends, List.length_nil] at balance
    rw [pit_begun] at grown
    omega

theorem endCounts_finalize {entry : PitEntry} (found : forwarder.pit.get? id = some entry)
    (satisfied : Bool) (freshness : Option Duration) :
    (forwarder.finalize id satisfied freshness).endCounts =
      if satisfied then (forwarder.endCounts.1 + 1, forwarder.endCounts.2)
      else (forwarder.endCounts.1, forwarder.endCounts.2 + 1) := by
  rw [endCounts, counters_finalize found]
  cases satisfied <;> rfl

/-- A timer that goes off erases the one entry that it belongs to. -/
theorem closed_fireNext (sound : Sound forwarder) {limit : Instant} {timer : Timer TimerEvent}
    {rest : Timers TimerEvent} (popped : forwarder.timers.popDue? limit = some (timer, rest)) :
    forwarder.closed (.fireNext limit) = [timer.payload.entry] := by
  have filed := sound.matched.filed
  have ended := ended_fire sound.matched popped
  obtain ⟨entry, found, _⟩ := popped_owner sound.matched popped
  refine List.perm_singleton.mp ((List.perm_ext_iff_of_nodup (Pit.nodup_ids.filter _)
    (List.nodup_singleton _)).mpr fun id => ?_)
  show id ∈ forwarder.closed (.fireNext limit) ↔ _
  rw [mem_closed, act_fireNext_of_popDue? popped, List.mem_singleton]
  constructor
  · rintro ⟨⟨entry, here⟩, gone⟩
    by_contra different
    rw [ended.change.entries id different] at gone
    cases gone.symm.trans here
  · rintro rfl
    exact ⟨⟨entry, found⟩, ended.gone⟩

theorem endCounts_fire (sound : Sound forwarder) {limit : Instant} {timer : Timer TimerEvent}
    {rest : Timers TimerEvent} (popped : forwarder.timers.popDue? limit = some (timer, rest)) :
    ({ forwarder with timers := rest }.fire timer.payload).endCounts =
      if forwarder.sweeps (.fireNext limit) then (forwarder.endCounts.1 + 1, forwarder.endCounts.2)
      else (forwarder.endCounts.1, forwarder.endCounts.2 + 1) := by
  obtain ⟨entry, found, _⟩ := popped_owner sound.matched popped
  simp only [sweeps, popped, Option.any_some]
  cases kind : timer.payload with
  | straggler id satisfied freshness =>
    rw [kind] at found
    exact @endCounts_finalize { forwarder with timers := rest } id entry found satisfied freshness
  | unsatisfy id =>
    rw [kind] at found
    obtain ⟨fib, expired⟩ := @expire_eq { forwarder with timers := rest } id entry found
    have here := @get?_expiring { forwarder with timers := rest, fib } id entry found
    show (expire _ id).endCounts = _
    rw [expired, endCounts_finalize here]
    rfl

/-- Entries that lose their last downstream are counted as unsatisfied. -/
theorem endCounts_forgetAll (matched : Matched forwarder.pit forwarder.timers) (face : FaceId)
    {ids : List PitId} (once : ids.Nodup) :
    (ids.foldl (forgetFace face) forwarder).endCounts =
      (forwarder.endCounts.1, forwarder.endCounts.2 +
        ids.countP fun id => (forwarder.pit.get? id).any fun entry => (entry.forget face).isNone) := by
  induction ids generalizing forwarder with
  | nil => rfl
  | cons first rest ih =>
    obtain ⟨absent, once'⟩ := List.nodup_cons.mp once
    obtain ⟨change, matched', _⟩ := forgetFace_spec matched face first
    have others : (rest.countP fun id => ((forgetFace face forwarder first).pit.get? id).any
        fun entry => (entry.forget face).isNone) =
        rest.countP fun id => (forwarder.pit.get? id).any fun entry => (entry.forget face).isNone :=
      List.countP_congr fun id member => by
        rw [change.entries id fun same => absent (same ▸ member)]
    have mine : (forgetFace face forwarder first).endCounts = (forwarder.endCounts.1,
        forwarder.endCounts.2 + if (forwarder.pit.get? first).any fun entry =>
          (entry.forget face).isNone then 1 else 0) := by
      rcases forwarder.forgetFace_cases face first with
        ⟨missing, same⟩ | ⟨entry, _, found, rfl, ⟨left, same⟩ | ⟨left, same⟩⟩
      · rw [same, missing]
        rfl
      · have here := @get?_updateEntry forwarder first
          fun entry => (entry.deleteInRecord face).deleteOutRecord face
        rw [found] at here
        rw [same, endCounts_finalize here, found, Option.any_some, left]
        rfl
      · rw [same, found, Option.any_some, left]
        rfl
    rw [List.foldl_cons, ih matched' once', others, mine, List.countP_cons]
    simp only [Prod.mk.injEq, true_and]
    omega

theorem endCounts_removeFace (sound : Sound forwarder) {face : FaceId}
    (removed : forwarder.removeFace face = .ok after) :
    after.endCounts = (forwarder.endCounts.1,
      forwarder.endCounts.2 + (forwarder.closed (.removeFace face)).length) := by
  have filed := sound.matched.filed
  obtain ⟨_, _, _, entries⟩ := removeFace_spec sound.matched removed
  have lost : (forwarder.closed (.removeFace face)).length = forwarder.pit.ids.countP fun id =>
      (forwarder.pit.get? id).any fun entry => (entry.forget face).isNone := by
    rw [closed, ← List.countP_eq_length_filter]
    refine List.countP_congr fun id member => ?_
    obtain ⟨entry, found⟩ := Pit.mem_ids.mp member
    rw [act_removeFace removed, entries, found]
    rfl
  rw [lost]
  unfold Forwarder.removeFace at removed
  split at removed
  · cases removed
    exact @endCounts_forgetAll { forwarder with
      faces := forwarder.faces.remove face, fib := forwarder.fib.removeFace face }
        sound.matched face forwarder.pit.ids Pit.nodup_ids
  · cases removed

/-- An action counts the entries that it erases, all of them as satisfied or all of
them as unsatisfied. -/
theorem Sound.endCounts_act (sound : Sound forwarder) (action : Action) :
    (forwarder.act action).endCounts =
      if forwarder.sweeps action then
        (forwarder.endCounts.1 + (forwarder.closed action).length, forwarder.endCounts.2)
      else (forwarder.endCounts.1, forwarder.endCounts.2 + (forwarder.closed action).length) := by
  have filed := sound.matched.filed
  by_cases ends : Ends action
  · cases ends with
    | removes face =>
      show _ = (forwarder.endCounts.1, _)
      cases removed : forwarder.removeFace face with
      | ok after =>
        rw [act_removeFace removed]
        exact endCounts_removeFace sound removed
      | error error =>
        have same : forwarder.act (.removeFace face) = forwarder := by
          simp only [Forwarder.act, removed, Except.toOption, Option.getD_none]
        rw [closed_of_same same, same]
        rfl
    | fires limit =>
      cases popped : forwarder.timers.popDue? limit with
      | some due =>
        obtain ⟨timer, rest⟩ := due
        rw [closed_fireNext sound popped, act_fireNext_of_popDue? popped]
        exact endCounts_fire sound popped
      | none =>
        have same : forwarder.act (.fireNext limit) = forwarder := by
          simp only [Forwarder.act, popped]
        rw [closed_of_same same, same]
        split <;> rfl
  · rw [endCounts_lasting ends, closed_eq_nil filed ends]
    split <;> rfl

/-- How many endings of a run were counted as the one or the other. -/
def ended (endings : List (PitId × Bool)) (satisfied : Bool) : Nat :=
  endings.countP (·.2 == satisfied)

/-- The counts of a run: entries are made, are there, or have ended, and each that
has ended was counted once. -/
structure Ledger (start : Forwarder) (history : List Action) : Prop where
  created : (start.run history).pit.created = start.pit.created + start.openings history
  satisfied : (start.run history).counters.satisfiedInterests =
    start.counters.satisfiedInterests + ended (start.endings history) true
  unsatisfied : (start.run history).counters.unsatisfiedInterests =
    start.counters.unsatisfiedInterests + ended (start.endings history) false
  present : (start.run history).pit.size + (start.endings history).length =
    start.pit.size + start.openings history
  once : ((start.endings history).map (·.1)).Nodup
  erased : ∀ {id : PitId}, id ∈ (start.endings history).map (·.1) ↔
    (start.run history).pit.get? id = none ∧ ∃ earlier later, history = earlier ++ later ∧
      ∃ entry, (start.run earlier).pit.get? id = some entry
  gone : ∀ {id : PitId}, id ∈ (start.endings history).map (·.1) →
    ∀ future, (start.run (history ++ future)).pit.get? id = none

theorem Sound.gone_run (sound : Sound forwarder) (gone : forwarder.pit.get? id = none)
    (old : id.number ≤ forwarder.pit.created) (actions : List Action) :
    (forwarder.run actions).pit.get? id = none := by
  cases here : (forwarder.run actions).pit.get? id with
  | none => rfl
  | some entry =>
    obtain ⟨_, live⟩ := sound.live_of_run old ⟨entry, here⟩
    cases gone.symm.trans live

theorem map_closed : ((forwarder.closed action).map (·, forwarder.sweeps action)).map (·.1) =
    forwarder.closed action := by
  rw [List.map_map]
  exact List.map_id _

/-- An entry has ended when it was there at some time and is not any more. -/
theorem Sound.mem_endings (sound : Sound forwarder) {history : List Action} :
    id ∈ (forwarder.endings history).map (·.1) ↔
      (forwarder.run history).pit.get? id = none ∧ ∃ earlier later, history = earlier ++ later ∧
        ∃ entry, (forwarder.run earlier).pit.get? id = some entry := by
  induction history generalizing forwarder with
  | nil =>
    refine ⟨fun impossible => (by cases impossible), ?_⟩
    rintro ⟨gone, earlier, later, split, entry, found⟩
    obtain ⟨rfl, rfl⟩ := List.append_eq_nil_iff.mp split.symm
    cases gone.symm.trans found
  | cons action rest ih =>
    have next := sound.act action
    rw [endings, List.map_append, map_closed, List.mem_append, ih next,
      mem_closed]
    constructor
    · rintro (⟨⟨entry, found⟩, gone⟩ | ⟨gone, earlier, later, split, live⟩)
      · have old := Nat.le_trans (sound.matched.filed.numbered found) (sound.onward action).created
        exact ⟨next.gone_run gone old rest, [], action :: rest, rfl, entry, found⟩
      · exact ⟨gone, action :: earlier, later, by rw [split]; rfl, live⟩
    · rintro ⟨gone, earlier, later, split, entry, found⟩
      cases earlier with
      | nil =>
        -- It ends with the first action or later on.
        cases after : (forwarder.act action).pit.get? id with
        | none => exact Or.inl ⟨⟨entry, found⟩, rfl⟩
        | some still => exact Or.inr ⟨gone, [], rest, rfl, still, after⟩
      | cons first earlier =>
        obtain ⟨rfl, split'⟩ := List.cons.inj split
        exact Or.inr ⟨gone, earlier, later, split', entry, found⟩

theorem Sound.number_of_mem_endings (sound : Sound forwarder) {history : List Action}
    (member : id ∈ (forwarder.endings history).map (·.1)) :
    id.number ≤ (forwarder.run history).pit.created := by
  obtain ⟨_, earlier, later, split, entry, found⟩ := sound.mem_endings.mp member
  have sound' := sound.run earlier
  rw [split, run_append]
  exact Nat.le_trans (sound'.matched.filed.numbered found) (sound'.created_le_run later)

/-- No entry ends twice. -/
theorem Sound.nodup_endings (sound : Sound forwarder) (history : List Action) :
    ((forwarder.endings history).map (·.1)).Nodup := by
  induction history generalizing forwarder with
  | nil => exact List.nodup_nil
  | cons action rest ih =>
    have next := sound.act action
    have filed := sound.matched.filed
    rw [endings, List.map_append, map_closed]
    refine List.nodup_append.mpr ⟨Pit.nodup_ids.filter _, ih next, ?_⟩
    rintro id first other later rfl
    obtain ⟨⟨entry, found⟩, gone⟩ := mem_closed.mp first
    have old := Nat.le_trans (filed.numbered found) (sound.onward action).created
    obtain ⟨_, earlier, later, split, live, here⟩ := next.mem_endings.mp later
    cases (next.gone_run gone old earlier).symm.trans here

theorem ended_append (first second : List (PitId × Bool)) (satisfied : Bool) :
    ended (first ++ second) satisfied = ended first satisfied + ended second satisfied :=
  List.countP_append

theorem ended_closed (satisfied : Bool) :
    ended ((forwarder.closed action).map (·, forwarder.sweeps action)) satisfied =
      if forwarder.sweeps action = satisfied then (forwarder.closed action).length else 0 := by
  rw [ended, List.countP_map]
  split
  · rename_i same
    exact List.countP_eq_length.mpr fun _ _ => beq_iff_eq.mpr same
  · rename_i different
    exact List.countP_eq_zero.mpr fun _ _ => mt beq_iff_eq.mp different

theorem Sound.endCounts_run (sound : Sound forwarder) (history : List Action) :
    (forwarder.run history).endCounts = (forwarder.endCounts.1 + ended (forwarder.endings history) true,
      forwarder.endCounts.2 + ended (forwarder.endings history) false) := by
  induction history generalizing forwarder with
  | nil => rfl
  | cons action rest ih =>
    show ((forwarder.act action).run rest).endCounts = _
    rw [ih (sound.act action), sound.endCounts_act, endings, ended_append, ended_append,
      ended_closed, ended_closed]
    cases forwarder.sweeps action <;> simp <;> omega

theorem Sound.size_run (sound : Sound forwarder) (history : List Action) :
    (forwarder.run history).pit.size + (forwarder.endings history).length =
      forwarder.pit.size + forwarder.openings history := by
  induction history generalizing forwarder with
  | nil => rfl
  | cons action rest ih =>
    have first := sound.size_act action
    have later := ih (sound.act action)
    rw [endings, openings, List.length_append, List.length_map]
    show ((forwarder.act action).run rest).pit.size + _ = _
    omega

theorem Sound.created_run (sound : Sound forwarder) (history : List Action) :
    (forwarder.run history).pit.created = forwarder.pit.created + forwarder.openings history := by
  induction history generalizing forwarder with
  | nil => rfl
  | cons action rest ih =>
    show ((forwarder.act action).run rest).pit.created = _
    rw [ih (sound.act action), sound.created_act, openings, Nat.add_assoc]

theorem Sound.ledger (sound : Sound forwarder) (history : List Action) :
    Ledger forwarder history where
  created := sound.created_run history
  satisfied := congrArg Prod.fst (sound.endCounts_run history)
  unsatisfied := congrArg Prod.snd (sound.endCounts_run history)
  present := sound.size_run history
  once := sound.nodup_endings history
  erased := sound.mem_endings
  gone member future := by
    rw [run_append]
    exact (sound.run history).gone_run (sound.mem_endings.mp member).1
      (sound.number_of_mem_endings member) future

theorem ended_length (endings : List (PitId × Bool)) :
    endings.length = ended endings true + ended endings false := by
  rw [List.length_eq_countP_add_countP (·.2 == true)]
  refine congrArg (_ + ·) (List.countP_congr fun ending _ => ?_)
  cases ending.2 <;> simp

variable {settings : Settings} {contentStore : ContentStore} {counters : Counters}
  {nonces : NonceSource} {start : Forwarder}

/-- Each entry that a forwarder ever makes is still pending, or has ended and was
counted then, once, as satisfied or as unsatisfied, and its id is never found again. -/
theorem entries_end_once (made : withParts settings contentStore counters nonces = .ok start)
    (history : List Action) :
    start.openings history + (counters.satisfiedInterests + counters.unsatisfiedInterests) =
        (start.run history).counters.satisfiedInterests +
          (start.run history).counters.unsatisfiedInterests + (start.run history).pit.size ∧
      (start.run history).pit.created = start.openings history ∧
      Ledger start history := by
  have ledger := (sound_start made).ledger history
  have total := ended_length (start.endings history)
  have satisfied := ledger.satisfied
  have unsatisfied := ledger.unsatisfied
  have present := ledger.present
  have created := ledger.created
  obtain ⟨_, _, rfl⟩ := eq_of_withParts made
  have bare : Pit.empty.size = 0 := rfl
  have unnumbered : Pit.empty.created = 0 := rfl
  refine ⟨?_, ?_, ledger⟩
  · simp only at satisfied unsatisfied present
    omega
  · simpa [unnumbered] using created

/-- An Interest is answered and its entry swept away, and the next one is never
answered. -/
def oneEachWay : List Action :=
  oneWaits ++ [.receiveData ⟨257⟩ { name := ⟨[[97]]⟩, content := [1] },
    .fireNext (Duration.ofMillis 500), .receiveInterest ⟨256⟩ { name := ⟨[[98]]⟩, nonce := 6 },
    .fireNext (Duration.ofMillis 9000)]

theorem entries_end_once_each_way :
    (usual.run oneEachWay).endCounts = (1, 1) ∧ (usual.run oneEachWay).pit.size = 0 ∧
      usual.openings oneEachWay = 2 ∧ Ledger usual oneEachWay := by
  obtain ⟨_, created, ledger⟩ := entries_end_once ofSettings_usual oneEachWay
  refine ⟨?_, ?_, created.symm.trans ?_, ledger⟩ <;>
    rw [run_eq_evaluate] <;> decide +kernel

end Forwarder

end NamedData
