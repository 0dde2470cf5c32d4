import Mathlib.Data.List.Induction
import NamedData.Proofs.Waiting

namespace NamedData

namespace Forwarder

variable {forwarder start : Forwarder} {id : PitId} {record : InRecord} {action : Action}

/-- A known nonce adds a downstream to an entry that is settled already. -/
def JoinsSettled (forwarder : Forwarder) (id : PitId) (face : FaceId) (interest : Interest) : Prop :=
  forwarder.Lingers id ∧ interest.name = id.name ∧
    forwarder.judge face interest = .duplicate (forwarder.admitted face interest)

/-- The record was put into an entry that had been satisfied, by a known nonce. -/
def Late (start : Forwarder) (history : List Action) (id : PitId) (record : InRecord) : Prop :=
  ∃ past interest rest, history = past ++ .receiveInterest record.face interest :: rest ∧
    (start.run past).JoinsSettled id record.face interest ∧
    record = (start.run past).newInRecord record.face
      ((start.run past).admitted record.face interest)

theorem Late.append {start : Forwarder} {history : List Action} (late : Late start history id record)
    (more : List Action) : Late start (history ++ more) id record := by
  obtain ⟨past, interest, rest, same, joins, new⟩ := late
  exact ⟨past, interest, rest ++ more, by rw [same, List.append_assoc]; rfl, joins, new⟩

theorem lingers_quiet {after : Forwarder} (quiet : Quiet id forwarder after)
    (lingers : after.Lingers id) : forwarder.Lingers id := by
  obtain ⟨entry, timer, freshness, found, armed, running⟩ := lingers
  exact ⟨entry, timer, freshness, quiet.entry ▸ found, armed, (quiet.timers timer _ rfl).mp running⟩

/-- A settled entry is given no downstream but by a known nonce. -/
theorem Sound.lingers_step (sound : Sound forwarder) {entry : PitEntry}
    (lingers : (forwarder.act action).Lingers id)
    (found : (forwarder.act action).pit.get? id = some entry) (member : record ∈ entry.inRecords) :
    (forwarder.Lingers id ∧ ∃ entry, forwarder.pit.get? id = some entry ∧ record ∈ entry.inRecords) ∨
      ∃ interest, action = .receiveInterest record.face interest ∧
        forwarder.JoinsSettled id record.face interest ∧
        record = forwarder.newInRecord record.face (forwarder.admitted record.face interest) := by
  rcases sound.quiet_or_touches id action with quiet | touches
  · exact Or.inl ⟨lingers_quiet quiet lingers, entry, quiet.entry.symm.trans found, member⟩
  · cases touches with
    | @joins face interest judged mine =>
      subst mine
      have joined := joined_receiveInterest sound.matched (sound.entryFor interest.name) judged
      have settled := joined.lingers lingers
      rw [joined.upkept.inRecords found] at member
      rcases PitEntry.mem_putRecord member with new | old
      · refine Or.inr ⟨interest, by rw [new]; rfl, ⟨settled, ?_, ?_⟩, ?_⟩
        · exact (sound.matched.filed.insert_name interest.name).symm
        · rw [new]; exact judged
        · rw [new]; rfl
      · refine Or.inl ⟨settled, ?_⟩
        obtain ⟨before, _, _, atId, _⟩ := settled
        rw [entryFor_of_get? atId] at old
        exact ⟨before, atId, old⟩
    | @asks face interest judged mine =>
      subst mine
      -- A request that goes on reopens the entry, and the cache leaves it bare.
      rcases handled_receiveInterest sound.matched (sound.entryFor _) judged with
        ⟨_, fresh⟩ | ⟨_, upkept⟩
      · exact absurd lingers fresh
      · rw [upkept.inRecords found] at member
        cases member
    | @answers source data accepts under =>
      have fanned := sound.fannedOut source data accepts.1 accepts.2
      cases before : forwarder.pit.get? id with
      | none => exact absurd ((fanned.gone id before).symm.trans found) (by simp)
      | some old =>
        obtain ⟨timer, _, _, here⟩ := fanned.settled id old before under
        have same : old.settled source timer = entry := Option.some.inj (here.symm.trans found)
        rw [← same] at member
        cases member
    | @leaves face after removed =>
      rw [act_removeFace removed] at lingers found
      obtain ⟨_, _, fewer, entries⟩ := removeFace_spec sound.matched removed
      obtain ⟨_, timer, freshness, atId, armed, running⟩ := lingers
      rw [found] at atId
      cases atId
      rw [entries] at found
      obtain ⟨before, here, left⟩ := Option.bind_eq_some_iff.mp found
      obtain ⟨slot, records⟩ := forget_eq_some left
      exact Or.inl ⟨⟨before, timer, freshness, here, by rw [← slot, armed], fewer running⟩, before,
        here, records member⟩
    | sends face hint newNonce =>
      have settled := lingers_sendInterest lingers
      refine Or.inl ⟨settled, ?_⟩
      obtain ⟨before, _, _, here, _⟩ := settled
      exact ⟨before, here, (((sound.upkept here).sendInterest face hint newNonce).inRecords found) ▸ member⟩
    | rejects =>
      have settled := lingers_reject lingers
      refine Or.inl ⟨settled, ?_⟩
      obtain ⟨before, _, _, here, _⟩ := settled
      exact ⟨before, here, ((sound.upkept here).reject.inRecords found) ▸ member⟩
    | @ends limit timer rest popped mine =>
      have gone := (ended_fire sound.matched popped).gone
      rw [act_fireNext_of_popDue? popped, ← mine, gone] at found
      cases found

theorem run_concat (history : List Action) (action : Action) :
    start.run (history ++ [action]) = (start.run history).act action := by
  rw [run_append]
  rfl

/-- Every downstream of a settled entry joined it late. -/
def OnlyLate (start : Forwarder) (history : List Action) : Prop :=
  ∀ (id : PitId) (record : InRecord) (entry : PitEntry), (start.run history).Lingers id →
    (start.run history).pit.get? id = some entry → record ∈ entry.inRecords →
    Late start history id record

theorem OnlyLate.step {history : List Action} (only : OnlyLate start history)
    (sound : Sound (start.run history)) (action : Action) :
    OnlyLate start (history ++ [action]) := by
  intro id record entry lingers found member
  rw [run_concat] at lingers found
  rcases sound.lingers_step lingers found member with
    ⟨before, old, here, listed⟩ | ⟨interest, same, joins, new⟩
  · exact (only id record old before here listed).append [action]
  · exact ⟨history, interest, [], by rw [same], joins, new⟩

variable {settings : Settings} {contentStore : ContentStore} {counters : Counters}
  {nonces : NonceSource}

theorem get?_start (made : withParts settings contentStore counters nonces = .ok start)
    (id : PitId) : start.pit.get? id = none := by
  unfold withParts at made
  split at made
  · cases made
  · cases made
    simp [Pit.empty, Pit.get?]

theorem onlyLate (made : withParts settings contentStore counters nonces = .ok start)
    (history : List Action) : OnlyLate start history := by
  induction history using List.reverseRecOn with
  | nil =>
    intro id record entry _ found
    rw [show start.run [] = start from rfl, get?_start made] at found
    cases found
  | append_singleton history action ih => exact ih.step ((sound_start made).run history) action

/-- The same downstream, whose record may have been renewed by a newer Interest
from its face on the way. -/
def RenewedBy (actions : List Action) (id : PitId) (record renewed : InRecord) : Prop :=
  renewed.face = record.face ∧ (renewed = record ∨
    ∃ interest, Action.receiveInterest record.face interest ∈ actions ∧ interest.name = id.name)

theorem RenewedBy.cons {actions : List Action} {middle renewed : InRecord}
    (first : forwarder.Renews id record action middle)
    (rest : RenewedBy actions id middle renewed) : RenewedBy (action :: actions) id record renewed := by
  obtain ⟨sameFace, later⟩ := rest
  rcases first with same | ⟨interest, asked, named, new⟩
  · rw [same] at sameFace later
    refine ⟨sameFace, later.imp_right ?_⟩
    rintro ⟨interest, member, named⟩
    exact ⟨interest, List.mem_cons_of_mem action member, named⟩
  · have middleFace : middle.face = record.face := by rw [new]; rfl
    exact ⟨sameFace.trans middleFace, Or.inr ⟨interest, by rw [asked]; exact List.mem_cons_self, named⟩⟩

/-- What has become of a downstream that waited after a history, at the end of a
future: it waits on, or at some point it waited still and its wait ended, or at
some point its entry was swept away, which it had joined late. -/
inductive WaitFate (start : Forwarder) (history future : List Action) (id : PitId)
    (record : InRecord) : Prop
  | waits (renewed : InRecord) (kept : RenewedBy future id record renewed)
      (waits : (start.run (history ++ future)).Waits id renewed)
  | ended (earlier : List Action) (action : Action) (later : List Action) (renewed : InRecord)
      (moment : future = earlier ++ action :: later)
      (kept : RenewedBy earlier id record renewed)
      (waited : (start.run (history ++ earlier)).Waits id renewed)
      (ends : (start.run (history ++ earlier)).WaitEnds id renewed action)
  | swept (earlier : List Action) (action : Action) (later : List Action) (renewed : InRecord)
      (moment : future = earlier ++ action :: later)
      (kept : RenewedBy earlier id record renewed)
      (waited : (start.run (history ++ earlier)).Waits id renewed)
      (sweeps : (start.run (history ++ earlier)).Sweeps id action)
      (late : Late start (history ++ earlier) id renewed)

theorem WaitFate.cons {history future : List Action} {renewed : InRecord}
    (first : forwarder.Renews id record action renewed)
    (fate : WaitFate start (history ++ [action]) future id renewed) :
    WaitFate start history (action :: future) id record := by
  have shift : ∀ rest : List Action, history ++ [action] ++ rest = history ++ action :: rest :=
    fun rest => List.append_assoc history [action] rest
  rcases fate with ⟨last, kept, waits⟩ | ⟨earlier, step, later, last, moment, kept, waited, ends⟩ |
    ⟨earlier, step, later, last, moment, kept, waited, sweeps, late⟩
  · rw [shift] at waits
    exact .waits last (kept.cons first) waits
  · rw [shift] at waited ends
    exact .ended (action :: earlier) step later last (by rw [moment]; rfl) (kept.cons first) waited ends
  · rw [shift] at waited sweeps late
    exact .swept (action :: earlier) step later last (by rw [moment]; rfl) (kept.cons first) waited
      sweeps late

theorem lingers_of_sweeps (sound : Sound forwarder) (sweeps : forwarder.Sweeps id action) :
    forwarder.Lingers id := by
  obtain ⟨limit, timer, rest, freshness, _, popped, event⟩ := sweeps
  obtain ⟨entry, found, armed⟩ := popped_owner sound.matched popped
  have running := (Timers.popDue?_eq_some popped).1
  rw [event] at found armed running
  exact ⟨entry, timer.id, freshness, found, armed, running⟩

theorem late_of_sweeps (made : withParts settings contentStore counters nonces = .ok start)
    {history : List Action} (waits : (start.run history).Waits id record)
    (sweeps : (start.run history).Sweeps id action) : Late start history id record := by
  obtain ⟨entry, found, member⟩ := waits.listed
  have settled := lingers_of_sweeps ((sound_start made).run history) sweeps
  exact onlyLate made history id record entry settled found member

theorem waitFate (made : withParts settings contentStore counters nonces = .ok start)
    {history : List Action} (future : List Action)
    (waits : (start.run history).Waits id record) : WaitFate start history future id record := by
  -- The record is generalized too: what waits after a step may be a renewed one.
  induction future generalizing history record with
  | nil => exact .waits record ⟨rfl, Or.inl rfl⟩ (by rw [List.append_nil]; exact waits)
  | cons action rest ih =>
    have sound : Sound (start.run history) := (sound_start made).run history
    have unchanged : RenewedBy [] id record record := ⟨rfl, Or.inl rfl⟩
    have here : (start.run (history ++ [])).Waits id record := by rw [List.append_nil]; exact waits
    rcases sound.wait_step waits action with ⟨renewed, renews, stays⟩ | ends | sweeps
    · rw [← run_concat] at stays
      exact (ih stays).cons renews
    · refine .ended [] action rest record rfl unchanged here ?_
      rw [List.append_nil]
      exact ends
    · refine .swept [] action rest record rfl unchanged here ?_ ?_ <;> rw [List.append_nil]
      · exact sweeps
      · exact late_of_sweeps made waits sweeps

/-- No downstream that waits is lost: whatever happens after it began to wait, it
waits on until its wait ends in one of the ways there are, unless it joined, by
a known nonce, an entry that was settled. Only such a downstream can be there
when a satisfied entry is swept away. -/
theorem waiting_is_kept (made : withParts settings contentStore counters nonces = .ok start)
    (history future : List Action) (id : PitId) (record : InRecord)
    (waits : (start.run history).Waits id record) :
    WaitFate start history future id record ∧
      ∀ action, (start.run history).Sweeps id action → Late start history id record :=
  ⟨waitFate made future waits, fun _ sweeps => late_of_sweeps made waits sweeps⟩

theorem waiting_is_kept_for_one :
    ∃ record, record.face = ⟨256⟩ ∧ (usual.run oneWaits).Waits ⟨1, ⟨[[97]]⟩⟩ record ∧
      WaitFate usual oneWaits [.fireNext (Duration.ofMillis 5000)] ⟨1, ⟨[[97]]⟩⟩ record := by
  obtain ⟨record, same, waits⟩ := exists_waits.mpr (show (usual.run oneWaits).waitsPast
    ⟨1, ⟨[[97]]⟩⟩ ⟨256⟩ (usual.run oneWaits).now = true by decide)
  exact ⟨record, same, waits, (waiting_is_kept ofSettings_usual oneWaits _ _ record waits).1⟩

/-- A face that is not local waits for anything there is. -/
def rootWaits : List Action :=
  [.addFace { isLocal := false }, .addFace { isLocal := false }, .addFace { isLocal := true },
    .changeRoutes (·.addNextHop .root { face := ⟨257⟩, cost := 1 }),
    .receiveInterest ⟨256⟩ { name := .root, nonce := 5 }]

/-- Data answers an Interest that was sent two ways, and then the same Interest
comes in on another face. -/
def lateJoins : List Action :=
  [.addFace { isLocal := false }, .addFace { isLocal := false }, .addFace { isLocal := false },
    .addFace { isLocal := false },
    .changeRoutes (·.addNextHop ⟨[[97]]⟩ { face := ⟨257⟩, cost := 1 }),
    .changeRoutes (·.addNextHop ⟨[[97]]⟩ { face := ⟨258⟩, cost := 1 }),
    .receiveInterest ⟨256⟩ { name := ⟨[[97]]⟩, nonce := 5 },
    .receiveData ⟨257⟩ { name := ⟨[[97]]⟩, content := [1] },
    .receiveInterest ⟨259⟩ { name := ⟨[[97]]⟩, nonce := 5 }]

/-- A downstream can lose its record before its time is up though nothing was
sent to it, its face is there and its entry was not rejected: when the Data
stays on the host, and when it joined an entry that was satisfied, whose end is
then counted as satisfied. -/
theorem waiting_is_lost :
    ((usual.run rootWaits).waitsPast ⟨1, .root⟩ ⟨256⟩
        ((usual.run rootWaits).act
          (.receiveData ⟨258⟩ { name := .localhost, content := [1] })).now = true ∧
      ((usual.run rootWaits).act
        (.receiveData ⟨258⟩ { name := .localhost, content := [1] })).waitsPast ⟨1, .root⟩ ⟨256⟩
          Duration.zero = false ∧
      (usual.run rootWaits).sends (.receiveData ⟨258⟩ { name := .localhost, content := [1] }) = []) ∧
    ((usual.run lateJoins).waitsPast ⟨1, ⟨[[97]]⟩⟩ ⟨259⟩
        ((usual.run lateJoins).act (.fireNext (Duration.ofMillis 100))).now = true ∧
      ((usual.run lateJoins).act (.fireNext (Duration.ofMillis 100))).pit.isEmpty = true ∧
      ((usual.run lateJoins).act (.fireNext (Duration.ofMillis 100))).counters.satisfiedInterests =
        (usual.run lateJoins).counters.satisfiedInterests + 1) := by
  rw [act_fireNext]
  decide

end Forwarder

end NamedData
