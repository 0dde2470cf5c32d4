import NamedData.Proofs.Handouts

namespace NamedData

namespace Forwarder

variable {forwarder before : Forwarder} {id : PitId} {records : List InRecord}

/-- A packet that goes out for an entry with these downstreams: an Interest for its
name, in scope on its face, for which another downstream waits. It is that of the
downstream that speaks to the face. -/
structure Asks (forwarder : Forwarder) (id : PitId) (records : List InRecord)
    (out : FaceId × Packet) : Prop where
  request : ∃ request, out.2 = .interest request ∧ request.name = id.name
  inScope : forwarder.violatesScope { id, name := id.name, inRecords := records } out.1 = false
  awaited : ∃ record ∈ records, record.face ≠ out.1 ∧ forwarder.now < record.expiry
  spoken : ∃ picked hint, speaker? out.1 records = some picked ∧
    out.2 = .interest { picked.interest with incomingFace := none, targetHint := hint }

/-- What a strategy has done so far: the entry is in order with the same downstreams,
and only Interests went out that were asked for. -/
structure Forwarded (id : PitId) (records : List InRecord) (before after : Forwarder) : Prop where
  upkept : Upkept id records before after
  sent : ∃ packets, after.outbox.sent = before.outbox.sent ++ packets ∧
    ∀ out ∈ packets, before.Asks id records out

/-- The scope of an entry is a matter of its name and its downstreams. -/
theorem violatesScope_congr {other : Forwarder} {entry twin : PitEntry}
    (faces : other.faces = forwarder.faces) (name : twin.name = entry.name)
    (records : twin.inRecords = entry.inRecords) (face : FaceId) :
    other.violatesScope twin face = forwarder.violatesScope entry face := by
  unfold violatesScope
  rw [faces, name, records]

theorem awaited_of_canForward {face : FaceId} (usable : forwarder.canForward id face = true) :
    ∃ entry, forwarder.pit.get? id = some entry ∧
      ∃ record ∈ entry.inRecords, record.face ≠ face ∧ forwarder.now < record.expiry := by
  unfold canForward at usable
  split at usable
  · cases usable
  · rename_i entry found
    obtain ⟨waits, _⟩ := Bool.and_eq_true_iff.mp usable
    obtain ⟨record, member, other⟩ := List.any_eq_true.mp (Bool.and_eq_true_iff.mp waits).2
    obtain ⟨different, unexpired⟩ := Bool.and_eq_true_iff.mp other
    exact ⟨entry, found, record, member, bne_iff_ne.mp different, of_decide_eq_true unexpired⟩

theorem Forwarded.of_same (upkept : Upkept id records before forwarder)
    (outbox : forwarder.outbox = before.outbox) : Forwarded id records before forwarder :=
  ⟨upkept, [], by rw [outbox, List.append_nil], fun _ impossible => by cases impossible⟩

theorem Forwarded.sendInterest (forwarded : Forwarded id records before forwarder) {face : FaceId}
    (usable : forwarder.canForward id face = true) (hint : Option String) :
    Forwarded id records before (forwarder.sendInterest id face hint false) := by
  refine ⟨forwarded.upkept.sendInterest face hint false, ?_⟩
  obtain ⟨packets, sent, asked⟩ := forwarded.sent
  rcases forwarder.sendInterest_cases id face hint false with
    ⟨change, idle⟩ | ⟨entry, record, found, _, inScope, spoken, _, emitted⟩
  · rw [idle]
    exact ⟨packets, sent, asked⟩
  · obtain ⟨_, found', waits⟩ := awaited_of_canForward usable
    cases found.symm.trans found'
    obtain ⟨_, found', same, _, recorded⟩ := forwarded.upkept.entry
    cases found.symm.trans found'
    have change := forwarded.upkept.change
    have named : record.interest.name = id.name :=
      (recorded.named (speaker?_mem spoken)).trans (forwarded.upkept.matched.filed.named found)
    rw [same, change.now] at waits
    rw [emitted, emitInterest_eq]
    refine ⟨packets ++ [(face, .interest { forwarder.outgoing record.interest false with
      incomingFace := none, targetHint := hint })], ?_, ?_⟩
    · show forwarder.outbox.sent ++ _ = _
      rw [sent, List.append_assoc]
    · intro out member
      rcases List.mem_append.mp member with old | new
      · exact asked out old
      · rw [List.mem_singleton.mp new]
        rw [same] at spoken
        refine ⟨⟨_, rfl, (name_outgoing record.interest false).trans named⟩, ?_, waits,
          record, hint, spoken, rfl⟩
        rw [← inScope]
        refine violatesScope_congr change.faces.symm ?_ same.symm face
        exact (forwarded.upkept.matched.filed.named found).symm

theorem Forwarded.reject (forwarded : Forwarded id records before forwarder) :
    Forwarded id records before (forwarder.reject id) :=
  ⟨forwarded.upkept.reject, by rw [outbox_reject]; exact forwarded.sent⟩

theorem Forwarded.afterReceiveInterest (forwarded : Forwarded id records before forwarder)
    (strategy : Strategy) (route : FibEntry) :
    Forwarded id records before (strategy.afterReceiveInterest forwarder route id) :=
  afterReceiveInterest_keeps (Forwarded id records before)
    (fun _ hop kept usable => kept.sendInterest usable hop.targetHint)
    (fun _ kept _ => kept.reject) strategy route forwarded

variable {source : FaceId} {interest : Interest}

/-- What comes of an Interest that a face sent: it is turned away, or the face waits
with the others and more may be asked, or the cache has answered and nobody waits. -/
inductive Outcome (source : FaceId) (interest : Interest) (before after : Forwarder) : Prop
  | refused (change : Counters → Counters) (same : after = before.count change)
  | waits (forwarded : Forwarded (before.pit.insert interest.name).1
      (PitEntry.putRecord InRecord.face (before.newInRecord source interest)
        (before.entryFor interest.name).inRecords) before after)
  | answered {packets : List (FaceId × Packet)}
      (upkept : Upkept (before.pit.insert interest.name).1 [] before after)
      (sent : after.outbox.sent = before.outbox.sent ++ packets)
      (one : packets = [] ∨ ∃ data, packets = [(source, .data data)])

/-- A change of the counters before it does not matter. -/
theorem Outcome.since {after : Forwarder} {change : Counters → Counters}
    (outcome : Outcome source interest (before.count change) after) :
    Outcome source interest before after := by
  have counted := @local_count before (before.pit.insert interest.name).1 change
  cases outcome with
  | refused more same => exact .refused _ (by rw [same, count_count])
  | waits forwarded =>
    obtain ⟨upkept, packets, sent, asked⟩ := forwarded
    refine .waits ⟨⟨counted.trans upkept.change, upkept.matched, upkept.entry⟩, packets, sent, ?_⟩
    exact fun out member => ⟨(asked out member).request, (asked out member).inScope,
      (asked out member).awaited, (asked out member).spoken⟩
  | answered upkept sent one =>
    exact .answered ⟨counted.trans upkept.change, upkept.matched, upkept.entry⟩ sent one

theorem forwarded_askOnward (matched : Matched forwarder.pit forwarder.timers)
    (recorded : (forwarder.entryFor interest.name).Recorded forwarder.faces)
    (present : forwarder.faces.contains source = true) (counts : Counters → Counters) :
    Forwarded (forwarder.pit.insert interest.name).1
      (PitEntry.putRecord InRecord.face (forwarder.newInRecord source interest)
        (forwarder.entryFor interest.name).inRecords) forwarder
      (((forwarder.reopen interest.name).count counts).askOnward
        (forwarder.pit.insert interest.name).1 source interest) := by
  refine Forwarded.afterReceiveInterest ?_ _ _
  refine .of_same (upkept_reopen matched recorded present counts) ?_
  rw [outbox_addInRecord]
  exact outbox_reopen interest.name

/-- The cache hands out its answer and nothing else. -/
theorem sent_answerFromCache (data : Data) :
    ∃ packets, (forwarder.answerFromCache id source interest data).outbox.sent =
        forwarder.outbox.sent ++ packets ∧
      (packets = [] ∨ ∃ data, packets = [(source, .data data)]) := by
  unfold answerFromCache
  dsimp only
  rw [sent_sendData, outbox_setStragglerTimer]
  refine ⟨_, rfl, ?_⟩
  split
  · exact Or.inr ⟨_, rfl⟩
  · exact Or.inl rfl

theorem outcome_handleRequest (matched : Matched forwarder.pit forwarder.timers)
    (recorded : (forwarder.entryFor interest.name).Recorded forwarder.faces)
    (present : forwarder.faces.contains source = true) :
    Outcome source interest forwarder (forwarder.handleRequest source interest) := by
  rcases handleRequest_cases matched source interest with ⟨misses, same⟩ | ⟨data, _, same⟩
  · rw [same]
    exact .waits (forwarded_askOnward matched recorded present _)
  · obtain ⟨packets, sent, one⟩ := @sent_answerFromCache ((forwarder.reopen interest.name).count
      fun counters => { counters with cacheHits := counters.cacheHits + 1 })
        (forwarder.pit.insert interest.name).1 source interest data
    rw [same]
    refine .answered (upkept_reopen_answered matched recorded _ data) (sent.trans ?_) one
    exact congrArg (fun outbox : Outbox => outbox.sent ++ packets) (outbox_reopen interest.name)

theorem outcome_receiveInterest (sound : Sound forwarder) (source : FaceId) (interest : Interest) :
    Outcome source (forwarder.admitted source interest) forwarder
      (forwarder.receiveInterest source interest) := by
  rcases forwarder.receiveInterest_cases source interest with
    ⟨change, same⟩ | ⟨kept, judged | judged⟩
  · exact .refused change same
  · refine .waits (.of_same (joined_receiveInterest sound.matched (sound.entryFor _) judged).upkept ?_)
    rw [receiveInterest_duplicate judged, outbox_joinDuplicate]
    rfl
  · obtain ⟨admitted, present⟩ := judge_letIn (Or.inr judged)
    rw [receiveInterest_request judged, admitted]
    exact Outcome.since (outcome_handleRequest sound.matched (sound.entryFor interest.name) present)

/-- What a request has sent out was asked of its entry, where its sender waits. -/
theorem Sound.asks_of_sent (sound : Sound forwarder) {face : FaceId} {request : Interest}
    (sent : (face, .interest request) ∈ forwarder.sends (.receiveInterest source interest)) :
    ∃ records, records = PitEntry.putRecord InRecord.face
        (forwarder.newInRecord source (forwarder.admitted source interest))
        (forwarder.entryFor interest.name).inRecords ∧
      Upkept (forwarder.pit.insert interest.name).1 records forwarder
        (forwarder.receiveInterest source interest) ∧
      forwarder.Asks (forwarder.pit.insert interest.name).1 records (face, .interest request) := by
  have hands := HandsOut.receivesInterest source interest
  cases outcome_receiveInterest sound source interest with
  | refused change same =>
    have silent : forwarder.sends (.receiveInterest source interest) = [] :=
      sends_of_outbox (by rw [Forwarder.act, same]; rfl)
    rw [silent] at sent
    cases sent
  | waits forwarded =>
    obtain ⟨packets, gained, asked⟩ := forwarded.sent
    rw [hands.sends_eq gained] at sent
    exact ⟨_, rfl, forwarded.upkept, asked _ sent⟩
  | answered _ gained one =>
    rw [hands.sends_eq gained] at sent
    rcases one with rfl | ⟨data, rfl⟩
    · cases sent
    · cases List.mem_singleton.mp sent

end Forwarder

end NamedData
