import NamedData.Proofs.Asking

namespace NamedData

namespace Forwarder

variable {forwarder : Forwarder} {id : PitId} {action : Action}

theorem mem_sends {out : FaceId × Packet} (member : out ∈ forwarder.sends action)
    {packets : List (FaceId × Packet)}
    (sent : (forwarder.act action).outbox.sent = forwarder.outbox.sent ++ packets) :
    out ∈ packets := by
  have gained : out ∈ (forwarder.act action).outbox.sent.drop forwarder.outbox.sent.length := by
    cases action with
    | collect face wanted => cases member
    | _ => exact member
  rw [sent, List.drop_left] at gained
  exact gained

theorem mem_sends_of_emitted {packets : List (FaceId × Packet)} {out : FaceId × Packet}
    (emitted : Emitted id forwarder (forwarder.act action) packets) (member : out ∈ packets)
    (kept : ∀ face wanted, action ≠ .collect face wanted) : out ∈ forwarder.sends action := by
  have gained : out ∈ (forwarder.act action).outbox.sent.drop forwarder.outbox.sent.length := by
    rw [emitted.sent, List.drop_left]
    exact member
  cases action with
  | collect face wanted => exact absurd rfl (kept face wanted)
  | _ => exact gained

theorem sends_of_outbox (same : (forwarder.act action).outbox = forwarder.outbox) :
    forwarder.sends action = [] := by
  refine List.eq_nil_iff_forall_not_mem.mpr fun out member => ?_
  have nothing : out ∈ ([] : List (FaceId × Packet)) :=
    mem_sends member (by rw [same, List.append_nil])
  cases nothing

theorem outbox_finalize (id : PitId) (satisfied : Bool) (freshness : Option Duration) :
    (forwarder.finalize id satisfied freshness).outbox = forwarder.outbox := by
  cases found : forwarder.pit.get? id with
  | none => rw [finalize_of_none found]
  | some entry => rw [finalize_eq found]

theorem outbox_fire (event : TimerEvent) : (forwarder.fire event).outbox = forwarder.outbox := by
  cases event with
  | straggler id satisfied freshness => exact outbox_finalize id satisfied freshness
  | unsatisfy id =>
    show (forwarder.expire id).outbox = _
    cases found : forwarder.pit.get? id with
    | none => simp only [expire, found]
    | some entry =>
      obtain ⟨fib, same⟩ := expire_eq found
      rw [same, outbox_finalize]
      rfl

theorem outbox_fireNext (limit : Instant) :
    (forwarder.act (.fireNext limit)).outbox = forwarder.outbox := by
  simp only [act]
  split
  · rfl
  · exact outbox_fire _

theorem outbox_forgetAll (face : FaceId) (ids : List PitId) :
    (ids.foldl (forgetFace face) forwarder).outbox = forwarder.outbox := by
  induction ids generalizing forwarder with
  | nil => rfl
  | cons first rest ih =>
    rw [List.foldl_cons, ih]
    rcases forwarder.forgetFace_cases face first with
      ⟨_, same⟩ | ⟨_, forgotten, _, isForgotten, ⟨_, same⟩ | ⟨_, same⟩⟩
    · rw [same]
    · rw [same, outbox_finalize, isForgotten]
      rfl
    · rw [same, isForgotten]
      rfl

/-- Data makes a forwarder hand out copies of it and nothing else. -/
theorem sent_receiveData (source : FaceId) (data : Data) :
    ∃ faces : List FaceId, (forwarder.receiveData source data).outbox.sent =
      forwarder.outbox.sent ++ faces.map fun face => (face, .data { data with incomingFace := none }) := by
  rcases forwarder.receiveData_cases source data with
    ⟨contentStore, counters, same, _⟩ | ⟨contentStore, counters, _, _, _, same⟩
  · rw [same]
    exact ⟨[], (List.append_nil _).symm⟩
  · obtain ⟨ids, isIds⟩ : ∃ ids, ids = forwarder.pit.dataMatches data.name := ⟨_, rfl⟩
    obtain ⟨noted, isNoted⟩ : ∃ noted, noted = { data with incomingFace := some source } := ⟨_, rfl⟩
    obtain ⟨outbox, counted, sends, handed⟩ := (ids.foldl (satisfy source noted)
      { forwarder with contentStore, counters }).sendAll_spec noted
        ((forwarder.waitingFaces ids).filter (· != source))
    rw [outbox_satisfyAll] at handed
    rw [same, ← isIds, ← isNoted, sends]
    rw [isNoted] at handed
    exact ⟨_, handed⟩

/-- The actions that may hand out packets. -/
inductive HandsOut : Action → Prop
  | receivesInterest (source : FaceId) (interest : Interest) :
      HandsOut (.receiveInterest source interest)
  | receivesData (source : FaceId) (data : Data) : HandsOut (.receiveData source data)
  | sendsInterest (id : PitId) (face : FaceId) (hint : Option String) (newNonce : Bool) :
      HandsOut (.sendInterest id face hint newNonce)
  | sendsData (data : Data) (face : FaceId) : HandsOut (.sendData data face)

theorem HandsOut.sends_eq (hands : HandsOut action) {packets : List (FaceId × Packet)}
    (sent : (forwarder.act action).outbox.sent = forwarder.outbox.sent ++ packets) :
    forwarder.sends action = packets := by
  have gained : forwarder.sends action =
      (forwarder.act action).outbox.sent.drop forwarder.outbox.sent.length := by
    cases hands <;> rfl
  rw [gained, sent, List.drop_left]

theorem sends_eq_nil (silent : ¬ HandsOut action) : forwarder.sends action = [] := by
  cases action with
  | addFace face => exact sends_of_outbox rfl
  | addReservedFace id face =>
    refine sends_of_outbox ?_
    simp only [Forwarder.act, Forwarder.addReservedFace]
    split <;> rfl
  | removeFace face =>
    refine sends_of_outbox ?_
    simp only [Forwarder.act, Forwarder.removeFace]
    split
    · exact outbox_forgetAll face _
    · rfl
  | changeRoutes change => exact sends_of_outbox rfl
  | changeStrategies change => exact sends_of_outbox rfl
  | receiveInterest source interest => exact absurd (.receivesInterest source interest) silent
  | receiveData source data => exact absurd (.receivesData source data) silent
  | receiveUnsolicited source data =>
    refine sends_of_outbox ?_
    show (forwarder.receiveUnsolicited source data).outbox = _
    unfold receiveUnsolicited
    dsimp only
    split <;> rfl
  | sendInterest id face hint newNonce => exact absurd (.sendsInterest id face hint newNonce) silent
  | reject id => exact sends_of_outbox outbox_reject
  | sendData data face => exact absurd (.sendsData data face) silent
  | collect face wanted => rfl
  | fireNext limit => exact sends_of_outbox (outbox_fireNext limit)
  | passTime time =>
    refine sends_of_outbox ?_
    simp only [Forwarder.act]
    split <;> rfl

/-- The actions that make Interests go out. -/
inductive Sender : Action → Prop
  | receives (source : FaceId) (interest : Interest) : Sender (.receiveInterest source interest)
  | sends (id : PitId) (face : FaceId) (hint : Option String) (newNonce : Bool) :
      Sender (.sendInterest id face hint newNonce)

variable {face : FaceId} {request : Interest}

theorem Sender.of_sent (sent : (face, .interest request) ∈ forwarder.sends action) :
    Sender action := by
  by_cases hands : HandsOut action
  · cases hands with
    | receivesInterest source interest => exact .receives source interest
    | receivesData source data =>
      obtain ⟨faces, handed⟩ := sent_receiveData source data
      obtain ⟨_, _, impossible⟩ := List.mem_map.mp (mem_sends sent handed)
      cases impossible
    | sendsInterest id other hint newNonce => exact .sends id other hint newNonce
    | sendsData data other =>
      have handed := mem_sends sent (sent_sendData data other)
      split at handed
      · cases List.mem_singleton.mp handed
      · cases handed
  · rw [sends_eq_nil hands] at sent
    cases sent

/-- An Interest that is handed to a face is for an entry, and the face is noted
there with its nonce. -/
theorem Sound.asked_of_sent (sound : Sound forwarder)
    (sent : (face, .interest request) ∈ forwarder.sends action) :
    ∃ id, id.name = request.name ∧ (forwarder.act action).Asked id face request.nonce := by
  have asks (id : PitId) (packets : List (FaceId × Packet))
      (emitted : Emitted id forwarder (forwarder.act action) packets) :
      ∃ id, id.name = request.name ∧ (forwarder.act action).Asked id face request.nonce := by
    obtain ⟨named, asked⟩ := emitted.noted (mem_sends sent emitted.sent)
    exact ⟨id, named.symm, asked⟩
  cases Sender.of_sent sent with
  | receives source interest =>
    obtain ⟨packets, emitted⟩ := emitted_receiveInterest sound source interest
    exact asks _ packets emitted
  | sends id other hint newNonce =>
    obtain ⟨packets, emitted⟩ := emitted_sendInterest sound id other hint newNonce
    exact asks _ packets emitted

end Forwarder

end NamedData
