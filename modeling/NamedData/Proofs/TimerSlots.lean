import NamedData.Forwarder.State
import NamedData.Proofs.DeadNonces
import NamedData.Proofs.PendingTable
import NamedData.Proofs.TimerQueue

namespace NamedData

/-- The two timers an entry has room for. -/
inductive TimerSlot where
  | unsatisfy
  | straggler
  deriving DecidableEq

namespace TimerEvent

def entry : TimerEvent → PitId
  | unsatisfy id => id
  | straggler id _ _ => id

def slot : TimerEvent → TimerSlot
  | unsatisfy _ => .unsatisfy
  | straggler _ _ _ => .straggler

end TimerEvent

namespace PitEntry

def timer (entry : PitEntry) : TimerSlot → Option TimerId
  | .unsatisfy => entry.unsatisfyTimer
  | .straggler => entry.stragglerTimer

def setTimer (entry : PitEntry) (slot : TimerSlot) (timer : Option TimerId) : PitEntry :=
  match slot with
  | .unsatisfy => { entry with unsatisfyTimer := timer }
  | .straggler => { entry with stragglerTimer := timer }

def disarmed (entry : PitEntry) : PitEntry :=
  { entry with unsatisfyTimer := none, stragglerTimer := none }

/-- One of the slots holds the timer. -/
def Holds (entry : PitEntry) (timer : TimerId) : Prop :=
  entry.unsatisfyTimer = some timer ∨ entry.stragglerTimer = some timer

instance (entry : PitEntry) (timer : TimerId) : Decidable (entry.Holds timer) :=
  inferInstanceAs (Decidable (_ ∨ _))

theorem holds_iff {entry : PitEntry} {timer : TimerId} :
    entry.Holds timer ↔ ∃ slot, entry.timer slot = some timer := by
  constructor
  · rintro (unsatisfy | straggler)
    · exact ⟨.unsatisfy, unsatisfy⟩
    · exact ⟨.straggler, straggler⟩
  · rintro ⟨_ | _, holds⟩
    · exact Or.inl holds
    · exact Or.inr holds

theorem keeps_disarmed : Keeps disarmed := fun _ => ⟨rfl, rfl⟩

theorem keeps_setTimer (slot : TimerSlot) (timer : Option TimerId) :
    Keeps fun entry => entry.setTimer slot timer := fun _ => by cases slot <;> exact ⟨rfl, rfl⟩

theorem timer_setTimer (entry : PitEntry) (slot other : TimerSlot) (timer : Option TimerId) :
    (entry.setTimer slot timer).timer other = if other = slot then timer else entry.timer other := by
  cases slot <;> cases other <;> rfl

end PitEntry

/-- The running timers and the armed slots of the live entries name each other:
a timer runs just when the slot of a live entry holds it. -/
structure Matched (pit : Pit) (timers : Timers TimerEvent) : Prop where
  filed : pit.Filed
  numbered : timers.Numbered
  live : ∀ {timer : TimerId} {event : TimerEvent}, timers.running[timer]? = some event →
    ∃ entry, pit.get? event.entry = some entry ∧ entry.timer event.slot = some timer
  armed : ∀ {id : PitId} {entry : PitEntry} {slot : TimerSlot} {timer : TimerId},
    pit.get? id = some entry → entry.timer slot = some timer →
    ∃ event, timers.running[timer]? = some event ∧ event.entry = id ∧ event.slot = slot

theorem Matched.empty : Matched .empty .empty where
  filed := Pit.filed_empty
  numbered := Timers.numbered_empty
  live running := by simp [Timers.empty] at running
  armed found := by simp [Pit.empty, Pit.get?] at found

/-- The same while one entry is on its way out: its slots may hold timers that
have gone off, but none that belongs to another entry. -/
structure MatchedBut (id : PitId) (pit : Pit) (timers : Timers TimerEvent) : Prop where
  filed : pit.Filed
  numbered : timers.Numbered
  live : ∀ {timer : TimerId} {event : TimerEvent}, timers.running[timer]? = some event →
    ∃ entry, pit.get? event.entry = some entry ∧ entry.timer event.slot = some timer
  armed : ∀ {other : PitId} {entry : PitEntry} {slot : TimerSlot} {timer : TimerId}, other ≠ id →
    pit.get? other = some entry → entry.timer slot = some timer →
    ∃ event, timers.running[timer]? = some event ∧ event.entry = other ∧ event.slot = slot
  own : ∀ {entry : PitEntry} {slot : TimerSlot} {timer : TimerId} {event : TimerEvent},
    pit.get? id = some entry → entry.timer slot = some timer →
    timers.running[timer]? = some event → event.entry = id

theorem Matched.but {pit : Pit} {timers : Timers TimerEvent} (matched : Matched pit timers)
    (id : PitId) : MatchedBut id pit timers where
  filed := matched.filed
  numbered := matched.numbered
  live := matched.live
  armed _ := matched.armed
  own found holds running := by
    obtain ⟨event, running', owner, _⟩ := matched.armed found holds
    rw [running] at running'
    cases running'
    exact owner

/-- No time passes, faces and settings stay, and nonces may be noted. Entries may
be made, but no number is given to a second one. -/
structure Steady (before after : Forwarder) : Prop where
  now : after.now = before.now
  faces : after.faces = before.faces
  settings : after.settings = before.settings
  created : before.pit.created ≤ after.pit.created
  noted : ∃ keys, after.deadNonces = before.deadNonces.addAll keys before.now

theorem Steady.refl (forwarder : Forwarder) : Steady forwarder forwarder :=
  ⟨rfl, rfl, rfl, Nat.le_refl _, [], rfl⟩

theorem Steady.trans {before middle after : Forwarder} (first : Steady before middle)
    (second : Steady middle after) : Steady before after where
  now := second.now.trans first.now
  faces := second.faces.trans first.faces
  settings := second.settings.trans first.settings
  created := Nat.le_trans first.created second.created
  noted := by
    obtain ⟨keys, noted⟩ := first.noted
    obtain ⟨more, noted'⟩ := second.noted
    refine ⟨keys ++ more, ?_⟩
    rw [noted', noted, first.now, DeadNonceList.addAll_append]

/-- What concerns one entry only: the others keep their records and their
timers. -/
structure Local (id : PitId) (before after : Forwarder) : Prop extends Steady before after where
  entries : ∀ other, other ≠ id → after.pit.get? other = before.pit.get? other
  timers : ∀ (timer : TimerId) (event : TimerEvent), event.entry ≠ id →
    (after.timers.running[timer]? = some event ↔ before.timers.running[timer]? = some event)

theorem Local.refl (id : PitId) (forwarder : Forwarder) : Local id forwarder forwarder :=
  ⟨.refl forwarder, fun _ _ => rfl, fun _ _ _ => Iff.rfl⟩

theorem Local.trans {id : PitId} {before middle after : Forwarder} (first : Local id before middle)
    (second : Local id middle after) : Local id before after where
  toSteady := first.toSteady.trans second.toSteady
  entries other different := (second.entries other different).trans (first.entries other different)
  timers timer event different :=
    (second.timers timer event different).trans (first.timers timer event different)

theorem Local.of_same {before after : Forwarder} (id : PitId) (pit : after.pit = before.pit)
    (timers : after.timers = before.timers) (faces : after.faces = before.faces)
    (settings : after.settings = before.settings)
    (deadNonces : after.deadNonces = before.deadNonces) : Local id before after where
  entries _ _ := by rw [pit]
  timers _ _ _ := by rw [timers]
  now := congrArg Timers.now timers
  faces := faces
  settings := settings
  created := Nat.le_of_eq (by rw [pit])
  noted := ⟨[], deadNonces⟩

/-- The two sides stay matched when they do at the one entry that changes. -/
theorem Matched.of_local {id : PitId} {before after : Forwarder}
    (matched : Matched before.pit before.timers) (change : Local id before after)
    (filed : after.pit.Filed) (numbered : after.timers.Numbered)
    (live : ∀ {timer : TimerId} {event : TimerEvent},
      after.timers.running[timer]? = some event → event.entry = id →
      ∃ entry, after.pit.get? id = some entry ∧ entry.timer event.slot = some timer)
    (armed : ∀ {entry : PitEntry} {slot : TimerSlot} {timer : TimerId},
      after.pit.get? id = some entry → entry.timer slot = some timer →
      ∃ event, after.timers.running[timer]? = some event ∧ event.entry = id ∧ event.slot = slot) :
    Matched after.pit after.timers where
  filed := filed
  numbered := numbered
  live := by
    intro timer event running
    by_cases mine : event.entry = id
    · rw [mine]
      exact live running mine
    · rw [change.entries _ mine]
      exact matched.live ((change.timers timer event mine).mp running)
  armed := by
    intro other entry slot timer found holds
    by_cases mine : other = id
    · subst mine
      exact armed found holds
    · rw [change.entries _ mine] at found
      obtain ⟨event, running, owner, kind⟩ := matched.armed found holds
      exact ⟨event, (change.timers timer event (by rw [owner]; exact mine)).mpr running, owner, kind⟩

namespace Forwarder

variable {forwarder : Forwarder}

theorem local_updateEntry {id : PitId} {change : PitEntry → PitEntry} :
    Local id forwarder (forwarder.updateEntry id change) where
  entries other different := by
    show (forwarder.pit.modify id change).get? other = _
    rw [Pit.get?_modify, if_neg different]
  timers _ _ _ := Iff.rfl
  now := rfl
  faces := rfl
  settings := rfl
  created := Nat.le_refl _
  noted := ⟨[], rfl⟩

theorem get?_updateEntry {id : PitId} {change : PitEntry → PitEntry} :
    (forwarder.updateEntry id change).pit.get? id = (forwarder.pit.get? id).map change :=
  Pit.get?_modify_self

theorem matched_updateEntry (matched : Matched forwarder.pit forwarder.timers) {id : PitId}
    {change : PitEntry → PitEntry} (kept : PitEntry.Keeps change)
    (slots : ∀ entry slot, (change entry).timer slot = entry.timer slot) :
    Matched (forwarder.updateEntry id change).pit (forwarder.updateEntry id change).timers := by
  refine matched.of_local local_updateEntry (matched.filed.modify kept) matched.numbered ?_ ?_
  · intro timer event running mine
    obtain ⟨entry, found, holds⟩ := matched.live running
    rw [mine] at found
    refine ⟨change entry, ?_, (slots entry _).trans holds⟩
    rw [get?_updateEntry, found]
    rfl
  · intro entry slot timer found holds
    rw [get?_updateEntry] at found
    obtain ⟨before, here, same⟩ := Option.map_eq_some_iff.mp found
    rw [← same, slots] at holds
    exact matched.armed here holds

theorem running_stopTimer (slot : Option TimerId) (timer : TimerId) :
    (forwarder.stopTimer slot).timers.running[timer]? =
      if slot = some timer then none else forwarder.timers.running[timer]? := by
  cases slot with
  | none => simp [stopTimer]
  | some stopped => simp only [stopTimer, Timers.running_cancel, Option.some.injEq, eq_comm]

theorem numbered_stopTimer (numbered : forwarder.timers.Numbered) (slot : Option TimerId) :
    (forwarder.stopTimer slot).timers.Numbered := by
  cases slot with
  | none => exact numbered
  | some stopped => exact numbered.cancel stopped

theorem stopTimer_eq (slot : Option TimerId) : forwarder.stopTimer slot =
    { forwarder with timers := (forwarder.stopTimer slot).timers } := by cases slot <;> rfl

/-- The handle of the next timer that is set. -/
def nextTimer (forwarder : Forwarder) (deadline : Instant) : TimerId :=
  ⟨max deadline forwarder.now, forwarder.timers.issued + 1⟩

/-- Sets a timer of an entry in place of the one its slot holds. -/
def rearm (forwarder : Forwarder) (entry : PitEntry) (deadline : Instant) (event : TimerEvent) :
    Forwarder :=
  let stopped := forwarder.stopTimer (entry.timer event.slot)
  let (timer, timers) := stopped.timers.scheduleAt deadline event
  { stopped with timers }.updateEntry event.entry fun entry => entry.setTimer event.slot (some timer)

theorem setUnsatisfyTimer_eq {id : PitId} {entry : PitEntry} {expiry : Instant}
    (found : forwarder.pit.get? id = some entry) (last : entry.lastInRecordExpiry? = some expiry) :
    forwarder.setUnsatisfyTimer id = forwarder.rearm entry expiry (.unsatisfy id) := by
  simp only [setUnsatisfyTimer, found, last]
  rfl

theorem setStragglerTimer_eq {id : PitId} {entry : PitEntry} (satisfied : Bool)
    (freshness : Option Duration) (found : forwarder.pit.get? id = some entry) :
    forwarder.setStragglerTimer id satisfied freshness =
      forwarder.rearm entry (forwarder.now + forwarder.settings.stragglerDelay)
        (.straggler id satisfied freshness) := by
  simp only [setStragglerTimer, found]
  cases slot : entry.stragglerTimer <;>
    simp only [rearm, stopTimer, Timers.schedule, TimerEvent.slot, PitEntry.timer, slot] <;> rfl

theorem rearm_timer (entry : PitEntry) (deadline : Instant) (event : TimerEvent) :
    ((forwarder.stopTimer (entry.timer event.slot)).timers.scheduleAt deadline event).1 =
      forwarder.nextTimer deadline := by
  cases holds : entry.timer event.slot <;> rfl

theorem running_rearm (entry : PitEntry) (deadline : Instant) (event : TimerEvent)
    (timer : TimerId) : (forwarder.rearm entry deadline event).timers.running[timer]? =
      if timer = forwarder.nextTimer deadline then some event
      else if entry.timer event.slot = some timer then none
      else forwarder.timers.running[timer]? := by
  show ((forwarder.stopTimer (entry.timer event.slot)).timers.scheduleAt deadline
    event).2.running[timer]? = _
  rw [Timers.running_scheduleAt, rearm_timer, running_stopTimer]

theorem nextTimer_fresh (numbered : forwarder.timers.Numbered) (deadline : Instant) :
    forwarder.timers.running[forwarder.nextTimer deadline]? = none := by
  cases running : forwarder.timers.running[forwarder.nextTimer deadline]? with
  | none => rfl
  | some other => exact absurd (numbered _ _ running) (Nat.not_succ_le_self _)

theorem get?_rearm {entry : PitEntry} (deadline : Instant) {event : TimerEvent}
    (found : forwarder.pit.get? event.entry = some entry) :
    (forwarder.rearm entry deadline event).pit.get? event.entry =
      some (entry.setTimer event.slot (some (forwarder.nextTimer deadline))) := by
  have same : (forwarder.rearm entry deadline event).pit = forwarder.pit.modify event.entry
      fun entry => entry.setTimer event.slot (some (forwarder.nextTimer deadline)) := by
    rw [← rearm_timer entry deadline event]
    cases holds : entry.timer event.slot <;> simp only [rearm, holds, stopTimer] <;> rfl
  rw [same, Pit.get?_modify_self, found]
  rfl

theorem local_rearm (matched : Matched forwarder.pit forwarder.timers) {entry : PitEntry}
    (deadline : Instant) {event : TimerEvent}
    (found : forwarder.pit.get? event.entry = some entry) :
    Local event.entry forwarder (forwarder.rearm entry deadline event) where
  entries other different := by
    have same : (forwarder.stopTimer (entry.timer event.slot)).pit = forwarder.pit := by
      rw [stopTimer_eq]
    show ((forwarder.stopTimer _).pit.modify _ _).get? other = _
    rw [Pit.get?_modify, if_neg different, same]
  timers timer other different := by
    rw [running_rearm]
    split
    · -- The new handle ran for nobody, and now it runs for this entry.
      rename_i new
      rw [new, nextTimer_fresh matched.numbered]
      constructor
      · intro same
        cases same
        exact absurd rfl different
      · intro impossible
        cases impossible
    · split
      · -- What is stopped ran for this entry, since its slot held it.
        rename_i stopped
        obtain ⟨owner, running, mine, _⟩ := matched.armed found stopped
        rw [running]
        constructor
        · intro impossible
          cases impossible
        · intro same
          cases same
          exact absurd mine different
      · exact Iff.rfl
  now := by rw [rearm, stopTimer_eq]; cases entry.timer event.slot <;> rfl
  faces := by rw [rearm, stopTimer_eq]; rfl
  settings := by rw [rearm, stopTimer_eq]; rfl
  created := by rw [rearm, stopTimer_eq]; exact Nat.le_refl _
  noted := ⟨[], by rw [rearm, stopTimer_eq]; rfl⟩

theorem matched_rearm (matched : Matched forwarder.pit forwarder.timers) {entry : PitEntry}
    (deadline : Instant) {event : TimerEvent}
    (found : forwarder.pit.get? event.entry = some entry) :
    Matched (forwarder.rearm entry deadline event).pit
      (forwarder.rearm entry deadline event).timers := by
  refine matched.of_local (local_rearm matched deadline found) ?_ ?_ ?_ ?_
  · have same : (forwarder.stopTimer (entry.timer event.slot)).pit = forwarder.pit := by
      rw [stopTimer_eq]
    show ((forwarder.stopTimer _).pit.modify _ _).Filed
    rw [same]
    exact matched.filed.modify (PitEntry.keeps_setTimer _ _)
  · exact (numbered_stopTimer matched.numbered _).scheduleAt deadline event
  · intro timer other running mine
    refine ⟨_, get?_rearm deadline found, ?_⟩
    rw [running_rearm] at running
    rw [PitEntry.timer_setTimer]
    split at running
    · rename_i new
      cases running
      rw [if_pos rfl, new]
    · rename_i old
      split at running
      · cases running
      · rename_i kept
        obtain ⟨before, atOwner, holds⟩ := matched.live running
        rw [mine, found] at atOwner
        cases atOwner
        have different : other.slot ≠ event.slot := fun same => kept (same ▸ holds)
        rw [if_neg different, holds]
  · intro after slot timer atOwner holds
    rw [get?_rearm deadline found] at atOwner
    cases atOwner
    rw [PitEntry.timer_setTimer] at holds
    split at holds
    · rename_i same
      cases holds
      exact ⟨event, by rw [running_rearm, if_pos rfl], rfl, same.symm⟩
    · rename_i different
      obtain ⟨other, running, owner, kind⟩ := matched.armed found holds
      refine ⟨other, ?_, owner, kind⟩
      have old : timer ≠ forwarder.nextTimer deadline := by
        intro new
        rw [new, nextTimer_fresh matched.numbered] at running
        cases running
      -- One timer in both slots would run for two events.
      have kept : entry.timer event.slot ≠ some timer := by
        intro stopped
        obtain ⟨twin, running', _, kind'⟩ := matched.armed found stopped
        rw [running] at running'
        cases running'
        exact different (kind.symm.trans kind')
      rw [running_rearm, if_neg old, if_neg kept, running]

theorem running_cancelTimers {id : PitId} {entry : PitEntry}
    (found : forwarder.pit.get? id = some entry) (timer : TimerId) :
    (forwarder.cancelTimers id).timers.running[timer]? =
      if entry.Holds timer then none else forwarder.timers.running[timer]? := by
  have same : (forwarder.cancelTimers id).timers =
      ((forwarder.stopTimer entry.unsatisfyTimer).stopTimer entry.stragglerTimer).timers := by
    simp only [cancelTimers, found]
    rfl
  rw [same, running_stopTimer, running_stopTimer]
  by_cases straggler : entry.stragglerTimer = some timer
  · have holds : entry.Holds timer := Or.inr straggler
    rw [if_pos straggler, if_pos holds]
  · by_cases unsatisfy : entry.unsatisfyTimer = some timer
    · have holds : entry.Holds timer := Or.inl unsatisfy
      rw [if_neg straggler, if_pos unsatisfy, if_pos holds]
    · have free : ¬ entry.Holds timer := not_or.mpr ⟨unsatisfy, straggler⟩
      rw [if_neg straggler, if_neg unsatisfy, if_neg free]

theorem cancelTimers_eq {id : PitId} {entry : PitEntry}
    (found : forwarder.pit.get? id = some entry) : forwarder.cancelTimers id =
      { forwarder with
        timers := (forwarder.cancelTimers id).timers
        pit := forwarder.pit.modify id PitEntry.disarmed } := by
  simp only [cancelTimers, found]
  rw [stopTimer_eq, stopTimer_eq]
  rfl

theorem cancelTimers_of_none {id : PitId} (missing : forwarder.pit.get? id = none) :
    forwarder.cancelTimers id = forwarder := by
  simp only [cancelTimers, missing]

/-- The timers of an entry concern the table of timers and the entry, nothing else. -/
theorem cancelTimers_frame (id : PitId) :
    ∃ timers pit, forwarder.cancelTimers id = { forwarder with timers, pit } := by
  cases found : forwarder.pit.get? id with
  | none => exact ⟨_, _, cancelTimers_of_none found⟩
  | some entry => exact ⟨_, _, cancelTimers_eq found⟩

theorem setUnsatisfyTimer_frame (id : PitId) :
    ∃ timers pit, forwarder.setUnsatisfyTimer id = { forwarder with timers, pit } := by
  unfold setUnsatisfyTimer
  split
  · exact ⟨_, _, rfl⟩
  · split
    · exact ⟨_, _, rfl⟩
    · rw [stopTimer_eq]
      exact ⟨_, _, rfl⟩

theorem setStragglerTimer_frame (id : PitId) (satisfied : Bool) (freshness : Option Duration) :
    ∃ timers pit, forwarder.setStragglerTimer id satisfied freshness =
      { forwarder with timers, pit } := by
  unfold setStragglerTimer
  split
  · exact ⟨_, _, rfl⟩
  · rw [stopTimer_eq]
    exact ⟨_, _, rfl⟩

theorem now_cancelTimers (id : PitId) : (forwarder.cancelTimers id).now = forwarder.now := by
  unfold cancelTimers
  split
  · rfl
  · rename_i entry _
    show (stopTimer _ _).timers.now = _
    cases entry.stragglerTimer <;> cases entry.unsatisfyTimer <;> rfl

theorem numbered_cancelTimers (numbered : forwarder.timers.Numbered) (id : PitId) :
    (forwarder.cancelTimers id).timers.Numbered := by
  unfold cancelTimers
  split
  · exact numbered
  · exact numbered_stopTimer (numbered_stopTimer numbered _) _

theorem get?_cancelTimers (id : PitId) :
    (forwarder.cancelTimers id).pit.get? id = (forwarder.pit.get? id).map PitEntry.disarmed := by
  cases found : forwarder.pit.get? id with
  | none => rw [cancelTimers_of_none found, found]; rfl
  | some entry =>
    rw [cancelTimers_eq found]
    show (forwarder.pit.modify id _).get? id = _
    rw [Pit.get?_modify_self, found]

theorem local_cancelTimers {id : PitId}
    (matched : MatchedBut id forwarder.pit forwarder.timers) :
    Local id forwarder (forwarder.cancelTimers id) := by
  cases found : forwarder.pit.get? id with
  | none =>
    rw [cancelTimers_of_none found]
    exact .refl id forwarder
  | some entry =>
    refine ⟨⟨now_cancelTimers id, ?_, ?_, ?_, [], ?_⟩, ?_, ?_⟩
    · rw [cancelTimers_eq found]
    · rw [cancelTimers_eq found]
    · rw [cancelTimers_eq found]
      exact Nat.le_refl _
    · rw [cancelTimers_eq found]
      rfl
    · intro other different
      rw [cancelTimers_eq found]
      show (forwarder.pit.modify id _).get? other = _
      rw [Pit.get?_modify, if_neg different]
    · intro timer event different
      rw [running_cancelTimers found]
      split
      · rename_i stopped
        obtain ⟨slot, holds⟩ := PitEntry.holds_iff.mp stopped
        constructor
        · intro impossible
          cases impossible
        · intro running
          exact absurd (matched.own found holds running) different
      · exact Iff.rfl

theorem matched_cancelTimers (matched : Matched forwarder.pit forwarder.timers) (id : PitId) :
    Matched (forwarder.cancelTimers id).pit (forwarder.cancelTimers id).timers := by
  cases found : forwarder.pit.get? id with
  | none =>
    rw [cancelTimers_of_none found]
    exact matched
  | some entry =>
    have disarmed := forwarder.get?_cancelTimers id
    rw [found] at disarmed
    refine matched.of_local (local_cancelTimers (matched.but id)) ?_
      (numbered_cancelTimers matched.numbered id) ?_ ?_
    · rw [cancelTimers_eq found]
      exact matched.filed.modify PitEntry.keeps_disarmed
    · intro timer event running mine
      rw [running_cancelTimers found] at running
      split at running
      · cases running
      · rename_i kept
        obtain ⟨before, atOwner, holds⟩ := matched.live running
        rw [mine, found] at atOwner
        cases atOwner
        exact absurd (PitEntry.holds_iff.mpr ⟨_, holds⟩) kept
    · intro after slot timer atOwner holds
      rw [disarmed] at atOwner
      cases atOwner
      cases slot <;> cases holds

end Forwarder

end NamedData
