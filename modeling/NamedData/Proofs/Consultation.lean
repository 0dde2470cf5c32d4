import NamedData.Proofs.Rejection

namespace NamedData

namespace Forwarder

variable {forwarder before after here : Forwarder} {id : PitId} {entry : PitEntry} {face : FaceId}

/-- An entry may go to a face: no answer is awaited there, another downstream still
waits, and no scope is crossed. -/
structure MayGo (forwarder : Forwarder) (entry : PitEntry) (face : FaceId) : Prop where
  idle : ∀ out ∈ entry.outRecords, out.face = face → out.expiry ≤ forwarder.now
  awaited : ∃ record ∈ entry.inRecords, record.face ≠ face ∧ forwarder.now < record.expiry
  inScope : forwarder.violatesScope entry face = false

instance : Decidable (forwarder.MayGo entry face) :=
  decidable_of_iff ((∀ out ∈ entry.outRecords, out.face = face → out.expiry ≤ forwarder.now) ∧
      (∃ record ∈ entry.inRecords, record.face ≠ face ∧ forwarder.now < record.expiry) ∧
      forwarder.violatesScope entry face = false)
    ⟨fun ⟨idle, awaited, inScope⟩ => ⟨idle, awaited, inScope⟩,
      fun may => ⟨may.idle, may.awaited, may.inScope⟩⟩

theorem canForward_iff (found : forwarder.pit.get? id = some entry) :
    forwarder.canForward id face = true ↔ forwarder.MayGo entry face := by
  constructor
  · intro usable
    obtain ⟨kept, found', waits⟩ := awaited_of_canForward usable
    cases found.symm.trans found'
    refine ⟨fun out member same => outRecords_le_of_canForward usable found member same, waits, ?_⟩
    unfold canForward at usable
    rw [found] at usable
    simpa using (Bool.and_eq_true_iff.mp usable).2
  · rintro ⟨idle, ⟨record, member, other, waits⟩, inScope⟩
    unfold canForward
    rw [found]
    refine Bool.and_eq_true_iff.mpr ⟨Bool.and_eq_true_iff.mpr ⟨?_, ?_⟩, ?_⟩
    · rw [Bool.not_eq_true', List.any_eq_false]
      intro out listed usable
      obtain ⟨same, unexpired⟩ := Bool.and_eq_true_iff.mp usable
      exact Nat.not_le.mpr (of_decide_eq_true unexpired) (idle out listed (eq_of_beq same))
    · exact List.any_eq_true.mpr ⟨record, member, by simp [other, waits]⟩
    · rw [inScope]
      rfl

/-- A strategy is at work on an entry. It is in order and waits for the same
downstreams, and the faces of the list are noted as they were. -/
structure AtWork (entry : PitEntry) (faces : List FaceId) (before here : Forwarder) : Prop where
  named : entry.name = entry.id.name
  upkept : Upkept entry.id entry.inRecords before here
  untried : ∀ {out : OutRecord}, out.face ∈ faces →
    (out ∈ here.outRecordsOf entry.id ↔ out ∈ entry.outRecords)

theorem AtWork.violatesScope_eq {faces : List FaceId} (work : AtWork entry faces before here)
    {kept : PitEntry} (found : here.pit.get? entry.id = some kept) (face : FaceId) :
    here.violatesScope kept face = before.violatesScope entry face :=
  violatesScope_congr work.upkept.change.faces
    ((work.upkept.matched.filed.named found).trans work.named.symm) (work.upkept.inRecords found) face

/-- What the strategy may do with a face is decided by the entry as it was found, as
long as the face was not tried. -/
theorem AtWork.mayGo_iff {faces : List FaceId} (work : AtWork entry faces before here)
    (untried : face ∈ faces) :
    here.canForward entry.id face = true ↔ before.MayGo entry face := by
  obtain ⟨kept, found, same, _⟩ := work.upkept.entry
  have change := work.upkept.change
  have noted {out : OutRecord} (mine : out.face = face) :
      out ∈ kept.outRecords ↔ out ∈ entry.outRecords := by
    rw [← outRecordsOf_of_get? found]
    exact work.untried (by rw [mine]; exact untried)
  have scope := work.violatesScope_eq found face
  rw [canForward_iff found]
  constructor
  · rintro ⟨idle, awaited, inScope⟩
    rw [same, change.now] at awaited
    rw [change.now] at idle
    exact ⟨fun out listed mine => idle out ((noted mine).mpr listed) mine, awaited,
      scope.symm.trans inScope⟩
  · rintro ⟨idle, awaited, inScope⟩
    rw [← same, ← change.now] at awaited
    rw [← change.now] at idle
    exact ⟨fun out listed mine => idle out ((noted mine).mp listed) mine, awaited,
      scope.trans inScope⟩

/-- An entry is sent to a face that it may go to: the face is there, and the
Interest that is picked for it has a hop left unless the face is local. -/
structure Open (forwarder : Forwarder) (entry : PitEntry) (face : FaceId) : Prop
    extends forwarder.MayGo entry face where
  present : forwarder.faces.contains face = true
  unspent : ∀ picked ∈ speaker? face entry.inRecords, picked.interest.hopLimit = some 0 →
    forwarder.faces.isLocal face = true

instance : Decidable (forwarder.Open entry face) :=
  decidable_of_iff (forwarder.MayGo entry face ∧ forwarder.faces.contains face = true ∧
      ∀ picked ∈ speaker? face entry.inRecords, picked.interest.hopLimit = some 0 →
        forwarder.faces.isLocal face = true)
    ⟨fun ⟨may, present, unspent⟩ => ⟨may, present, unspent⟩,
      fun way => ⟨way.toMayGo, way.present, way.unspent⟩⟩

/-- Where the way is open, the Interest of the downstream that speaks to the face is
sent. -/
theorem AtWork.sends {faces : List FaceId} (work : AtWork entry faces before here)
    (valid : ∀ {face : FaceId}, before.faces.contains face = true → face.isValid = true)
    (way : before.Open entry face) (hint : Option String) :
    ∃ kept picked, here.pit.get? entry.id = some kept ∧
      speaker? face entry.inRecords = some picked ∧
      here.sendInterest entry.id face hint false =
        here.emitInterest entry.id face picked.interest hint false := by
  obtain ⟨kept, found, same, _⟩ := work.upkept.entry
  have change := work.upkept.change
  obtain ⟨record, member, _⟩ := way.awaited
  obtain ⟨picked, spoken⟩ := @exists_speaker? entry.inRecords face record member
  have reachable : here.isReachable face = true := by
    rw [isReachable, change.faces, valid way.present, way.present]
    rfl
  have inScope : here.violatesScope kept face = false :=
    (work.violatesScope_eq found face).trans way.inScope
  refine ⟨kept, picked, found, spoken, ?_⟩
  refine sendInterest_eq_emitInterest found reachable inScope (by rw [same]; exact spoken) ?_ hint false
  rintro ⟨spent, outside⟩
  rw [change.faces, way.unspent picked spoken spent] at outside
  cases outside

/-- Where the way is not open, nothing is sent, and only a counter may change. -/
theorem AtWork.sends_not {faces : List FaceId} (work : AtWork entry faces before here)
    (may : before.MayGo entry face) (shut : ¬ before.Open entry face) (hint : Option String) :
    ∃ change, here.sendInterest entry.id face hint false = here.count change := by
  rcases here.sendInterest_cases entry.id face hint false with
    unsent | ⟨kept, picked, found, reachable, _, spoken, unspent, _⟩
  · exact unsent
  · have faces := work.upkept.change.faces
    rw [work.upkept.inRecords found] at spoken
    refine absurd ⟨may, ?_, ?_⟩ shut
    · rw [← faces]
      exact (Bool.and_eq_true_iff.mp reachable).2
    · intro other spoken'
      cases spoken.symm.trans spoken'
      rw [← faces]
      exact unspent

/-- An entry has just been given up: this was counted, no timer ends its wait any
more, and it lingers unsatisfied for as long as a straggler may take. -/
structure Rejected (id : PitId) (before after : Forwarder) : Prop where
  counted : after.counters.rejectedInterests = before.counters.rejectedInterests + 1
  lingers : ∃ entry timer, after.pit.get? id = some entry ∧ entry.unsatisfyTimer = none ∧
    entry.stragglerTimer = some timer ∧
    timer.deadline = after.now + after.settings.stragglerDelay ∧
    after.timers.running[timer]? = some (.straggler id false none)

theorem Rejected.since {first : Forwarder} (rejected : Rejected id before after)
    (same : before.counters.rejectedInterests = first.counters.rejectedInterests) :
    Rejected id first after :=
  ⟨by rw [rejected.counted, same], rejected.lingers⟩

theorem hasUnexpiredOutRecords_congr (records : after.outRecordsOf id = before.outRecordsOf id)
    (now : after.now = before.now) :
    after.hasUnexpiredOutRecords id = before.hasUnexpiredOutRecords id := by
  have read (forwarder : Forwarder) : forwarder.hasUnexpiredOutRecords id =
      (forwarder.outRecordsOf id).any fun out => forwarder.now < out.expiry := by
    rw [hasUnexpiredOutRecords, outRecordsOf]
    cases forwarder.pit.get? id <;> rfl
  rw [read, read, records, now]

/-- An entry that awaits no answer is given up, and then still awaits none. -/
theorem rejected_of_idle (matched : Matched forwarder.pit forwarder.timers)
    (found : forwarder.pit.get? id = some entry)
    (idle : forwarder.hasUnexpiredOutRecords id = false) :
    Rejected id forwarder (forwarder.reject id) ∧
      (forwarder.reject id).hasUnexpiredOutRecords id = false := by
  have unawaited : entry.hasUnexpiredOutRecords forwarder.now = false := by
    rw [hasUnexpiredOutRecords, found] at idle
    exact idle
  obtain ⟨counted, isCounted⟩ : ∃ counted, counted = forwarder.count fun counters =>
    { counters with rejectedInterests := counters.rejectedInterests + 1 } := ⟨_, rfl⟩
  obtain ⟨stopped, isStopped⟩ : ∃ stopped, stopped = counted.cancelTimers id := ⟨_, rfl⟩
  have countedMatched : Matched counted.pit counted.timers := by
    rw [isCounted]
    exact matched
  have given : forwarder.reject id = stopped.setStragglerTimer id false none := by
    simp only [reject, found, unawaited, Bool.false_eq_true, if_false]
    rw [isStopped, isCounted]
  have disarmed : stopped.pit.get? (TimerEvent.straggler id false none).entry =
      some entry.disarmed := by
    rw [isStopped]
    refine (get?_cancelTimers id).trans ?_
    rw [isCounted]
    exact congrArg (Option.map PitEntry.disarmed) found
  have counts : Local id forwarder counted := by
    rw [isCounted]
    exact local_count id _
  have stops : Local id forwarder stopped := by
    rw [isStopped]
    exact counts.trans (local_cancelTimers (countedMatched.but id))
  have lingers := @setStragglerTimer_eq stopped id _ false none disarmed
  have arms : Local id stopped (forwarder.reject id) := by
    rw [given, lingers]
    refine local_rearm ?_ _ disarmed
    rw [isStopped]
    exact matched_cancelTimers countedMatched id
  obtain ⟨timer, isTimer⟩ : ∃ timer, timer =
    stopped.nextTimer (stopped.now + stopped.settings.stragglerDelay) := ⟨_, rfl⟩
  refine ⟨⟨?_, entry.disarmed.setTimer .straggler (some timer), timer, ?_, rfl, rfl, ?_, ?_⟩, ?_⟩
  · obtain ⟨_, _, frame⟩ := stopped.setStragglerTimer_frame id false none
    obtain ⟨_, _, frame'⟩ := counted.cancelTimers_frame id
    rw [given, frame, isStopped, frame', isCounted]
    rfl
  · rw [given, lingers, isTimer]
    exact get?_rearm _ disarmed
  · rw [arms.now, arms.settings, isTimer]
    exact Duration.max_add_left _ _
  · rw [given, lingers, running_rearm, if_pos isTimer]
  · rw [← idle]
    exact hasUnexpiredOutRecords_congr outRecordsOf_reject (stops.trans arms).now

variable {source : FaceId} {interest : Interest}

/-- An Interest goes to the strategy: it asks for something anew, and others wait for
it already or the cache has no Data for it. -/
structure Consults (forwarder : Forwarder) (source : FaceId) (interest : Interest) : Prop where
  judged : forwarder.judge source interest = .request (forwarder.admitted source interest)
  missed : (forwarder.entryFor interest.name).hasUnexpiredInRecords forwarder.now = true ∨
    forwarder.contentStore.find? (forwarder.admitted source interest) forwarder.now = none

instance : Decidable (forwarder.Consults source interest) :=
  decidable_of_iff
    (forwarder.judge source interest = .request (forwarder.admitted source interest) ∧
      ((forwarder.entryFor interest.name).hasUnexpiredInRecords forwarder.now = true ∨
        forwarder.contentStore.find? (forwarder.admitted source interest) forwarder.now = none))
    ⟨fun ⟨judged, missed⟩ => ⟨judged, missed⟩, fun consults => ⟨consults.judged, consults.missed⟩⟩

/-- The entry of an Interest with its sender among those that wait. -/
def joined (forwarder : Forwarder) (source : FaceId) (interest : Interest) : PitEntry :=
  (forwarder.entryFor interest.name).addInRecord source (forwarder.admitted source interest)
    forwarder.now (forwarder.lifetimeOf interest)

/-- What the strategy is handed: the entry is in order with its sender among those
that wait, and so far nothing was sent or rejected. -/
structure Handed (entry : PitEntry) (before waiting : Forwarder) : Prop where
  named : entry.name = entry.id.name
  upkept : Upkept entry.id entry.inRecords before waiting
  outRecords : waiting.outRecordsOf entry.id = entry.outRecords
  outbox : waiting.outbox = before.outbox
  rejections : waiting.counters.rejectedInterests = before.counters.rejectedInterests

theorem Handed.work {waiting : Forwarder} (handed : Handed entry before waiting)
    (faces : List FaceId) : AtWork entry faces before waiting :=
  ⟨handed.named, handed.upkept, fun _ => by rw [handed.outRecords]⟩

/-- An Interest that the cache is not asked for, or has no Data for, is asked onward. -/
theorem handleRequest_missed (matched : Matched forwarder.pit forwarder.timers)
    (missed : (forwarder.entryFor interest.name).hasUnexpiredInRecords forwarder.now = true ∨
      forwarder.contentStore.find? interest forwarder.now = none) :
    ∃ misses, forwarder.handleRequest source interest = ((forwarder.reopen interest.name).count
        fun counters => { counters with cacheMisses := misses }).askOnward
          (forwarder.pit.insert interest.name).1 source interest := by
  obtain ⟨_, _, frame⟩ := forwarder.reopen_frame interest.name
  have cached : (forwarder.reopen interest.name).contentStore = forwarder.contentStore := by rw [frame]
  unfold handleRequest
  dsimp only
  split
  · exact ⟨_, rfl⟩
  · rename_i idle
    have nobody : ¬ ((forwarder.reopen interest.name).pit.get? (forwarder.pit.insert interest.name).1).any
      (·.hasUnexpiredInRecords (forwarder.reopen interest.name).now) = true := idle
    rw [get?_reopen matched, (local_reopen matched _).now, Option.any_some] at nobody
    have missing : (forwarder.reopen interest.name).contentStore.find? interest
        (forwarder.reopen interest.name).now = none := by
      rw [cached, (local_reopen matched _).now]
      exact missed.resolve_left nobody
    rw [← reopen, missing]
    exact ⟨_, rfl⟩

theorem id_entryFor (filed : forwarder.pit.Filed) (name : Name) :
    (forwarder.entryFor name).id = (forwarder.pit.insert name).1 := by
  cases found : forwarder.pit.get? (forwarder.pit.insert name).1 with
  | none => rw [entryFor, found]; rfl
  | some entry => rw [entryFor_of_get? found, filed.own found]

theorem name_entryFor (filed : forwarder.pit.Filed) (name : Name) :
    (forwarder.entryFor name).name = name := by
  cases found : forwarder.pit.get? (forwarder.pit.insert name).1 with
  | none => rw [entryFor, found]; rfl
  | some entry => rw [entryFor_of_get? found, filed.named found, filed.insert_name]

theorem outRecordsOf_insert_fst (name : Name) :
    forwarder.outRecordsOf (forwarder.pit.insert name).1 = (forwarder.entryFor name).outRecords := by
  rw [outRecordsOf, entryFor]
  cases forwarder.pit.get? (forwarder.pit.insert name).1 <;> rfl

/-- The strategy in charge of the name decides, on the closest route. -/
theorem Sound.handed (sound : Sound forwarder) (consults : forwarder.Consults source interest) :
    ∃ waiting, Handed (forwarder.joined source interest) forwarder waiting ∧
      forwarder.receiveInterest source interest =
        (forwarder.strategies.effective interest.name).afterReceiveInterest waiting
          (forwarder.fib.longestPrefixMatch interest.name) (forwarder.joined source interest).id := by
  obtain ⟨_, present⟩ := judge_letIn (Or.inr consults.judged)
  obtain ⟨misses, asked⟩ := @handleRequest_missed forwarder.received source
    (forwarder.admitted source interest) sound.matched consults.missed
  have same : (forwarder.joined source interest).id = (forwarder.pit.insert interest.name).1 :=
    id_entryFor sound.matched.filed interest.name
  obtain ⟨reopened, isReopened⟩ : ∃ reopened, reopened = (forwarder.received.reopen interest.name).count
    fun counters => { counters with cacheMisses := misses } := ⟨_, rfl⟩
  obtain ⟨waiting, isWaiting⟩ : ∃ waiting, waiting = (reopened.addInRecord
    (forwarder.joined source interest).id source (forwarder.admitted source interest)).setUnsatisfyTimer
      (forwarder.joined source interest).id := ⟨_, rfl⟩
  have upkept : Upkept (forwarder.joined source interest).id
      (forwarder.joined source interest).inRecords forwarder waiting := by
    have upkept := @upkept_reopen forwarder.received source (forwarder.admitted source interest)
      sound.matched (sound.entryFor interest.name) present fun counters =>
        { counters with cacheMisses := misses }
    rw [isWaiting, isReopened, same]
    exact ⟨(local_count _ _).trans upkept.change, upkept.matched, upkept.entry⟩
  obtain ⟨outbox, rejections, fib, strategies⟩ : waiting.outbox = forwarder.outbox ∧
      waiting.counters.rejectedInterests = forwarder.counters.rejectedInterests ∧
      waiting.fib = forwarder.fib ∧ waiting.strategies = forwarder.strategies := by
    obtain ⟨_, _, reopens⟩ := forwarder.received.reopen_frame interest.name
    obtain ⟨_, _, armed⟩ := (reopened.addInRecord (forwarder.joined source interest).id source
      (forwarder.admitted source interest)).setUnsatisfyTimer_frame (forwarder.joined source interest).id
    rw [isWaiting, armed, isReopened, reopens]
    exact ⟨rfl, rfl, rfl, rfl⟩
  refine ⟨waiting, ⟨?_, upkept, ?_, outbox, rejections⟩, ?_⟩
  · rw [same, sound.matched.filed.insert_name]
    exact name_entryFor sound.matched.filed interest.name
  · rw [isWaiting, outRecordsOf_addInRecord, isReopened, same]
    refine (@outRecordsOf_reopen forwarder.received sound.matched.filed interest.name).trans ?_
    exact outRecordsOf_insert_fst interest.name
  · rw [receiveInterest_request consults.judged]
    refine asked.trans ?_
    rw [← fib, ← strategies, isWaiting, isReopened, same]
    rfl

end Forwarder

end NamedData
