import NamedData.Forwarder.Receiving
import NamedData.Proofs.EntryRecords
import NamedData.Proofs.TimerSlots

namespace NamedData

/-- One entry is in order and waits for the given downstreams, and nothing that
concerns another entry has changed. -/
structure Upkept (id : PitId) (records : List InRecord) (before after : Forwarder) : Prop where
  change : Local id before after
  matched : Matched after.pit after.timers
  entry : ∃ entry, after.pit.get? id = some entry ∧ entry.inRecords = records ∧ entry.Timed ∧
    entry.Recorded after.faces

namespace Forwarder

variable {forwarder : Forwarder}

/-- The Interest of a downstream as it goes out, with a nonce of its own when
one is asked for. -/
def outgoing (forwarder : Forwarder) (interest : Interest) (newNonce : Bool) : Interest :=
  if newNonce then (interest.refreshed forwarder.nonces).1 else interest

theorem name_outgoing (interest : Interest) (newNonce : Bool) :
    (forwarder.outgoing interest newNonce).name = interest.name := by
  cases newNonce <;> rfl

/-- An Interest is either not sent, and then only a counter may change, or it is
the one of the downstream that speaks for the entry, and nothing forbids it. -/
theorem sendInterest_cases (id : PitId) (face : FaceId) (hint : Option String) (newNonce : Bool) :
    (∃ change, forwarder.sendInterest id face hint newNonce = forwarder.count change) ∨
      ∃ entry record, forwarder.pit.get? id = some entry ∧ forwarder.isReachable face = true ∧
        forwarder.violatesScope entry face = false ∧
        speaker? face entry.inRecords = some record ∧
        (record.interest.hopLimit = some 0 → forwarder.faces.isLocal face = true) ∧
        forwarder.sendInterest id face hint newNonce =
          forwarder.emitInterest id face record.interest hint newNonce := by
  unfold sendInterest
  split
  · exact Or.inl ⟨fun counters => counters, rfl⟩
  · rename_i entry found
    split
    · exact Or.inl ⟨_, rfl⟩
    · rename_i reachable
      split
      · exact Or.inl ⟨_, rfl⟩
      · rename_i inScope
        split
        · exact Or.inl ⟨fun counters => counters, rfl⟩
        · rename_i record spoken
          split
          · exact Or.inl ⟨fun counters => counters, rfl⟩
          · rename_i unspent
            refine Or.inr ⟨entry, record, found, by simpa using reachable, by simpa using inScope,
              spoken, ?_, rfl⟩
            intro exhausted
            simpa [exhausted] using unspent

theorem emitInterest_eq (id : PitId) (face : FaceId) (interest : Interest) (hint : Option String)
    (newNonce : Bool) : forwarder.emitInterest id face interest hint newNonce =
      { forwarder with
        nonces := (forwarder.emitInterest id face interest hint newNonce).nonces
        pit := forwarder.pit.modify id fun entry =>
          entry.addOutRecord face (forwarder.outgoing interest newNonce).nonce forwarder.now
            (forwarder.lifetimeOf interest)
        outbox := forwarder.outbox.push face (.interest { forwarder.outgoing interest newNonce with
          incomingFace := none, targetHint := hint })
        counters := { forwarder.counters with
          outInterests := forwarder.counters.outInterests + 1 } } := by
  cases newNonce <;> rfl

/-- The face that is asked is noted with the nonce it gets. -/
theorem get?_emitInterest {id : PitId} {entry : PitEntry}
    (found : forwarder.pit.get? id = some entry) (face : FaceId) (interest : Interest)
    (hint : Option String) (newNonce : Bool) :
    (forwarder.emitInterest id face interest hint newNonce).pit.get? id =
      some (entry.addOutRecord face (forwarder.outgoing interest newNonce).nonce forwarder.now
        (forwarder.lifetimeOf interest)) := by
  rw [emitInterest_eq]
  show (forwarder.pit.modify id _).get? id = _
  rw [Pit.get?_modify_self, found]
  rfl

theorem count_count (first second : Counters → Counters) :
    (forwarder.count first).count second = forwarder.count (second ∘ first) := rfl

theorem local_count (id : PitId) (change : Counters → Counters) :
    Local id forwarder (forwarder.count change) :=
  .of_same id rfl rfl rfl rfl rfl

theorem local_sendInterest (id : PitId) (face : FaceId) (hint : Option String) (newNonce : Bool) :
    Local id forwarder (forwarder.sendInterest id face hint newNonce) := by
  rcases forwarder.sendInterest_cases id face hint newNonce with
    ⟨change, same⟩ | ⟨_, record, _, _, _, _, _, sent⟩
  · rw [same]
    exact local_count id change
  · rw [sent, emitInterest_eq]
    exact ⟨⟨rfl, rfl, rfl, Nat.le_refl _, [], rfl⟩,
      local_updateEntry.entries, fun _ _ _ => Iff.rfl⟩

theorem sendData_eq (data : Data) (face : FaceId) : forwarder.sendData data face =
    { forwarder with
      outbox := (forwarder.sendData data face).outbox
      counters := (forwarder.sendData data face).counters } := by
  unfold sendData
  split
  · rfl
  · split <;> rfl

theorem local_sendData (id : PitId) (data : Data) (face : FaceId) :
    Local id forwarder (forwarder.sendData data face) := by
  rw [sendData_eq]
  exact .of_same id rfl rfl rfl rfl rfl

theorem matched_sendInterest (matched : Matched forwarder.pit forwarder.timers) (id : PitId)
    (face : FaceId) (hint : Option String) (newNonce : Bool) :
    Matched (forwarder.sendInterest id face hint newNonce).pit
      (forwarder.sendInterest id face hint newNonce).timers := by
  rcases forwarder.sendInterest_cases id face hint newNonce with
    ⟨change, same⟩ | ⟨_, record, _, _, _, _, _, sent⟩
  · rw [same]
    exact matched
  · rw [sent, emitInterest_eq]
    exact matched_updateEntry matched (fun _ => ⟨rfl, rfl⟩)
      (fun _ slot => by cases slot <;> rfl)

/-- A send adds at most one record of a next hop, and that hop is there. -/
theorem entry_sendInterest {id : PitId} {entry : PitEntry}
    (found : forwarder.pit.get? id = some entry) (face : FaceId) (hint : Option String)
    (newNonce : Bool) :
    (forwarder.sendInterest id face hint newNonce).pit.get? id = some entry ∨
      ∃ nonce lifetime, forwarder.faces.contains face = true ∧
        (forwarder.sendInterest id face hint newNonce).pit.get? id =
          some (entry.addOutRecord face nonce forwarder.now lifetime) := by
  rcases forwarder.sendInterest_cases id face hint newNonce with
    ⟨change, same⟩ | ⟨_, record, _, reachable, _, _, _, sent⟩
  · rw [same]
    exact Or.inl found
  · refine Or.inr ⟨(forwarder.outgoing record.interest newNonce).nonce,
      forwarder.lifetimeOf record.interest, (Bool.and_eq_true_iff.mp reachable).2, ?_⟩
    rw [sent]
    exact get?_emitInterest found face record.interest hint newNonce

/-- A rejection is either refused, and then only a counter may change, or the
entry no longer awaits an answer and lingers. -/
theorem reject_cases (id : PitId) :
    (∃ change, forwarder.reject id = forwarder.count change) ∨
      ∃ entry change, forwarder.pit.get? id = some entry ∧
        entry.hasUnexpiredOutRecords forwarder.now = false ∧
        forwarder.reject id =
          ((forwarder.count change).cancelTimers id).setStragglerTimer id false none := by
  unfold reject
  split
  · exact Or.inl ⟨fun counters => counters, rfl⟩
  · rename_i entry found
    split
    · exact Or.inl ⟨_, rfl⟩
    · rename_i idle
      exact Or.inr ⟨entry, _, found, by simpa using idle, rfl⟩

/-- What every send to a next hop and every rejection keeps, a strategy keeps. -/
theorem afterReceiveInterest_keeps_through (Keeps : Forwarder → Prop) {id : PitId}
    (strategy : Strategy) {route : FibEntry}
    (send : ∀ (forwarder : Forwarder) (hop : NextHop), hop ∈ route.nextHops → Keeps forwarder →
      forwarder.canForward id hop.face = true →
      Keeps (forwarder.sendInterest id hop.face hop.targetHint false))
    (reject : ∀ forwarder : Forwarder, Keeps forwarder →
      forwarder.hasUnexpiredOutRecords id = false → Keeps (forwarder.reject id))
    (start : Keeps forwarder) : Keeps (strategy.afterReceiveInterest forwarder route id) := by
  cases strategy with
  | multicast =>
    have flooded : Keeps (Strategy.flood forwarder id route.nextHops) := by
      unfold Strategy.flood
      generalize route.nextHops = hops at send
      -- Each hop is tried in the state that the hops before it have left.
      induction hops generalizing forwarder with
      | nil => exact start
      | cons hop rest ih =>
        refine ih ?_ fun forwarder other later => send forwarder other (List.mem_cons_of_mem _ later)
        dsimp only
        split
        · rename_i usable
          exact send forwarder hop List.mem_cons_self start usable
        · exact start
    simp only [Strategy.afterReceiveInterest]
    split
    · exact flooded
    · rename_i idle
      exact reject _ flooded (by simpa using idle)
  | bestRoute penalty =>
    simp only [Strategy.afterReceiveInterest]
    split
    · exact start
    · rename_i idle
      split
      · rename_i hop found
        exact send _ hop (List.mem_of_find?_eq_some found) start (by simpa using List.find?_some found)
      · exact reject _ start (by simpa using idle)

/-- What every send and every rejection keeps, a strategy keeps. -/
theorem afterReceiveInterest_keeps (Keeps : Forwarder → Prop) {id : PitId}
    (send : ∀ (forwarder : Forwarder) (hop : NextHop), Keeps forwarder →
      forwarder.canForward id hop.face = true →
      Keeps (forwarder.sendInterest id hop.face hop.targetHint false))
    (reject : ∀ forwarder : Forwarder, Keeps forwarder →
      forwarder.hasUnexpiredOutRecords id = false → Keeps (forwarder.reject id))
    (strategy : Strategy) (route : FibEntry) (start : Keeps forwarder) :
    Keeps (strategy.afterReceiveInterest forwarder route id) :=
  afterReceiveInterest_keeps_through Keeps strategy (fun forwarder hop _ => send forwarder hop)
    reject start

variable {id : PitId}

/-- The entry was satisfied, and the timer that clears it away is set. -/
def Lingers (forwarder : Forwarder) (id : PitId) : Prop :=
  ∃ entry timer freshness, forwarder.pit.get? id = some entry ∧
    entry.stragglerTimer = some timer ∧
    forwarder.timers.running[timer]? = some (.straggler id true freshness)

theorem lingers_updateEntry {change : PitEntry → PitEntry}
    (lingers : (forwarder.updateEntry id change).Lingers id)
    (slots : ∀ entry, (change entry).stragglerTimer = entry.stragglerTimer) :
    forwarder.Lingers id := by
  obtain ⟨entry, timer, freshness, found, armed, running⟩ := lingers
  rw [get?_updateEntry] at found
  obtain ⟨before, here, same⟩ := Option.map_eq_some_iff.mp found
  exact ⟨before, timer, freshness, here, by rw [← slots, same, armed], running⟩

theorem lingers_rearm {entry : PitEntry} {deadline : Instant} {event : TimerEvent}
    (mine : event.entry = id) (found : forwarder.pit.get? id = some entry)
    (unsettled : ∀ freshness, event ≠ .straggler id true freshness)
    (lingers : (forwarder.rearm entry deadline event).Lingers id) : forwarder.Lingers id := by
  subst mine
  obtain ⟨after, timer, freshness, here, armed, running⟩ := lingers
  rw [get?_rearm deadline found] at here
  cases here
  rw [running_rearm] at running
  split at running
  · exact absurd (Option.some.inj running) (unsettled freshness)
  · rename_i old
    split at running
    · cases running
    · cases kind : event.slot with
      | unsatisfy =>
        rw [kind] at armed
        exact ⟨entry, timer, freshness, found, armed, running⟩
      | straggler =>
        rw [kind] at armed
        exact absurd (Option.some.inj armed).symm old

theorem not_lingers_cancelTimers (id : PitId) : ¬ (forwarder.cancelTimers id).Lingers id := by
  rintro ⟨entry, timer, freshness, found, armed, _⟩
  rw [get?_cancelTimers] at found
  obtain ⟨before, _, same⟩ := Option.map_eq_some_iff.mp found
  rw [← same] at armed
  cases armed

theorem lingers_setUnsatisfyTimer (lingers : (forwarder.setUnsatisfyTimer id).Lingers id) :
    forwarder.Lingers id := by
  cases found : forwarder.pit.get? id with
  | none =>
    simp only [setUnsatisfyTimer, found] at lingers
    exact lingers
  | some entry =>
    cases last : entry.lastInRecordExpiry? with
    | none =>
      simp only [setUnsatisfyTimer, found, last] at lingers
      exact lingers
    | some expiry =>
      rw [setUnsatisfyTimer_eq found last] at lingers
      exact lingers_rearm rfl found (fun _ impossible => by cases impossible) lingers

theorem lingers_sendInterest {face : FaceId} {hint : Option String} {newNonce : Bool}
    (lingers : (forwarder.sendInterest id face hint newNonce).Lingers id) :
    forwarder.Lingers id := by
  rcases forwarder.sendInterest_cases id face hint newNonce with
    ⟨change, same⟩ | ⟨_, record, _, _, _, _, _, sent⟩
  · rw [same] at lingers
    exact lingers
  · rw [sent, emitInterest_eq] at lingers
    exact @lingers_updateEntry forwarder id (·.addOutRecord face _ _ _) lingers fun _ => rfl

theorem lingers_reject (lingers : (forwarder.reject id).Lingers id) : forwarder.Lingers id := by
  rcases forwarder.reject_cases id with ⟨change, same⟩ | ⟨entry, change, found, _, rejected⟩
  · rw [same] at lingers
    exact lingers
  · have disarmed := (forwarder.count change).get?_cancelTimers id
    rw [show (forwarder.count change).pit.get? id = some entry from found] at disarmed
    rw [rejected, setStragglerTimer_eq false none disarmed] at lingers
    exact absurd (lingers_rearm rfl disarmed (fun _ impossible => by cases impossible) lingers)
      (not_lingers_cancelTimers id)

variable {before : Forwarder} {entry : PitEntry} {records : List InRecord}

/-- An entry that only its straggler timer can end is in order. -/
theorem upkept_setStragglerTimer (change : Local id before forwarder)
    (matched : Matched forwarder.pit forwarder.timers)
    (found : forwarder.pit.get? id = some entry) (stopped : entry.unsatisfyTimer = none)
    (recorded : entry.Recorded forwarder.faces) (satisfied : Bool) (freshness : Option Duration) :
    Upkept id entry.inRecords before (forwarder.setStragglerTimer id satisfied freshness) := by
  have owner : forwarder.pit.get? (TimerEvent.straggler id satisfied freshness).entry = some entry :=
    found
  rw [setStragglerTimer_eq satisfied freshness found]
  refine ⟨change.trans (local_rearm matched _ owner), matched_rearm matched _ owner, _,
    get?_rearm _ owner, rfl, ⟨?_, ?_⟩, ?_⟩
  · intro timer record armed
    rw [show entry.unsatisfyTimer = some timer from armed] at stopped
    cases stopped
  · intro idle
    cases idle
  · rw [(local_rearm matched _ owner).faces]
    exact recorded.of_subset rfl (List.Subset.refl _) (List.Subset.refl _)

/-- An entry that some downstream waits for is in order once the timer that ends
the wait is set. -/
theorem upkept_setUnsatisfyTimer (change : Local id before forwarder)
    (matched : Matched forwarder.pit forwarder.timers)
    (found : forwarder.pit.get? id = some entry) {record : InRecord}
    (waiting : record ∈ entry.inRecords) (recorded : entry.Recorded forwarder.faces) :
    Upkept id entry.inRecords before (forwarder.setUnsatisfyTimer id) := by
  obtain ⟨last, latest⟩ := PitEntry.lastInRecordExpiry?_of_mem waiting
  have owner : forwarder.pit.get? (TimerEvent.unsatisfy id).entry = some entry := found
  rw [setUnsatisfyTimer_eq found latest]
  refine ⟨change.trans (local_rearm matched _ owner), matched_rearm matched _ owner, _,
    get?_rearm _ owner, rfl, ⟨?_, ?_⟩, ?_⟩
  · intro timer other armed member
    cases armed
    -- A deadline that is past already counts from now, which is later still.
    have bound := PitEntry.expiry_le_last latest member
    show other.expiry.nanos ≤ (max last forwarder.now).nanos
    rw [Duration.nanos_max]
    exact Nat.le_trans bound (Nat.le_max_left _ _)
  · intro _
    exact ⟨List.ne_nil_of_mem waiting, rfl⟩
  · rw [(local_rearm matched _ owner).faces]
    exact recorded.of_subset rfl (List.Subset.refl _) (List.Subset.refl _)

end Forwarder

open Forwarder

variable {id : PitId} {before after : Forwarder} {records : List InRecord}

theorem Upkept.inRecords (upkept : Upkept id records before after) {entry : PitEntry}
    (found : after.pit.get? id = some entry) : entry.inRecords = records := by
  obtain ⟨kept, here, same, _⟩ := upkept.entry
  rw [← same, Option.some.inj (here.symm.trans found)]

theorem Upkept.count (upkept : Upkept id records before after) (change : Counters → Counters) :
    Upkept id records before (after.count change) :=
  ⟨upkept.change.trans (local_count id change), upkept.matched, upkept.entry⟩

theorem Upkept.sendInterest (upkept : Upkept id records before after) (face : FaceId)
    (hint : Option String) (newNonce : Bool) :
    Upkept id records before (after.sendInterest id face hint newNonce) := by
  obtain ⟨entry, found, same, timed, recorded⟩ := upkept.entry
  have sent := after.local_sendInterest id face hint newNonce
  refine ⟨upkept.change.trans sent, matched_sendInterest upkept.matched id face hint newNonce, ?_⟩
  rw [sent.faces]
  rcases entry_sendInterest found face hint newNonce with kept | ⟨nonce, lifetime, present, added⟩
  · exact ⟨entry, kept, same, timed, recorded⟩
  · exact ⟨_, added, same, ⟨timed.covered, timed.awaited⟩,
      recorded.addOutRecord nonce after.now lifetime present⟩

theorem Upkept.sendData (upkept : Upkept id records before after) (data : Data) (face : FaceId) :
    Upkept id records before (after.sendData data face) := by
  refine ⟨upkept.change.trans (local_sendData id data face), ?_, ?_⟩
  · rw [sendData_eq]
    exact upkept.matched
  · rw [sendData_eq]
    exact upkept.entry

theorem Upkept.reject (upkept : Upkept id records before after) :
    Upkept id records before (after.reject id) := by
  rcases after.reject_cases id with ⟨change, same⟩ | ⟨_, change, _, _, rejected⟩
  · rw [same]
    exact upkept.count change
  · obtain ⟨entry, found, same, _, recorded⟩ := upkept.entry
    have counted := upkept.count change
    have stopped := local_cancelTimers (counted.matched.but id)
    have disarmed := (after.count change).get?_cancelTimers id
    rw [show (after.count change).pit.get? id = some entry from found] at disarmed
    rw [rejected, ← same]
    refine upkept_setStragglerTimer (counted.change.trans stopped)
      (matched_cancelTimers counted.matched id) disarmed rfl ?_ false none
    rw [stopped.faces]
    exact recorded.of_subset rfl (List.Subset.refl _) (List.Subset.refl _)

/-- A strategy may send an entry on or give it up. Either way it stays in order. -/
theorem Upkept.afterReceiveInterest (upkept : Upkept id records before after)
    (strategy : Strategy) (route : FibEntry) :
    Upkept id records before (strategy.afterReceiveInterest after route id) :=
  afterReceiveInterest_keeps (Upkept id records before)
    (fun _ hop kept _ => kept.sendInterest hop.face hop.targetHint false)
    (fun _ kept _ => kept.reject) strategy route upkept

end NamedData
