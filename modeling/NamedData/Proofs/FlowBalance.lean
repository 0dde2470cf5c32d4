import Mathlib.Data.Finset.Card
import NamedData.Proofs.EntrySteps
import NamedData.Proofs.Forwarding
import NamedData.Proofs.Waiting

namespace NamedData

/-- An Interest comes in on a face. -/
def Action.isInterestFrom (face : FaceId) : Action → Bool
  | .receiveInterest source _ => source == face
  | _ => false

/-- How many Interests come in on a face. -/
def interestsFrom (face : FaceId) (actions : List Action) : Nat :=
  actions.countP (·.isInterestFrom face)

namespace Forwarder

/-- How many Data packets an action hands to a face. -/
def dataSent (forwarder : Forwarder) (face : FaceId) (action : Action) : Nat :=
  (forwarder.sends action).countP fun out => out.1 == face && out.2.isData

/-- How many Data packets a run hands to a face. -/
def dataTo (forwarder : Forwarder) (face : FaceId) : List Action → Nat
  | [] => 0
  | action :: rest => forwarder.dataSent face action + (forwarder.act action).dataTo face rest

/-- A face is among the downstreams of an entry. -/
def Owes (forwarder : Forwarder) (face : FaceId) (id : PitId) : Prop :=
  ∃ entry, forwarder.pit.get? id = some entry ∧ ∃ record ∈ entry.inRecords, record.face = face

/-- A face has credit for each entry that it is a downstream of. -/
def InCredit (forwarder : Forwarder) (face : FaceId) (credit : Nat) : Prop :=
  ∃ owed : Finset PitId, owed.card ≤ credit ∧ ∀ id, forwarder.Owes face id → id ∈ owed

variable {before after forwarder : Forwarder} {face source : FaceId} {id : PitId}
  {interest : Interest} {action : Action} {credit : Nat}

theorem InCredit.keep (inCredit : before.InCredit face credit)
    (fewer : ∀ id, after.Owes face id → before.Owes face id) : after.InCredit face credit := by
  obtain ⟨owed, bound, all⟩ := inCredit
  exact ⟨owed, bound, fun id owes => all id (fewer id owes)⟩

/-- One more entry takes one more credit. -/
theorem InCredit.earn (inCredit : before.InCredit face credit)
    (more : ∀ other, after.Owes face other → before.Owes face other ∨ other = id) :
    after.InCredit face (credit + 1) := by
  obtain ⟨owed, bound, all⟩ := inCredit
  refine ⟨insert id owed, (Finset.card_insert_le id owed).trans (by omega), ?_⟩
  intro other owes
  rcases more other owes with old | new
  · exact Finset.mem_insert_of_mem (all other old)
  · rw [new]
    exact Finset.mem_insert_self id owed

/-- An entry that is left gives its credit back. -/
theorem InCredit.spend (inCredit : before.InCredit face credit)
    (fewer : ∀ id, after.Owes face id → before.Owes face id) (owes : before.Owes face id)
    (settled : ¬ after.Owes face id) :
    ∃ left, after.InCredit face left ∧ left + 1 ≤ credit := by
  obtain ⟨owed, bound, all⟩ := inCredit
  have listed := all id owes
  refine ⟨(owed.erase id).card, ⟨owed.erase id, le_rfl, ?_⟩, ?_⟩
  · intro other still
    refine Finset.mem_erase.mpr ⟨?_, all other (fewer other still)⟩
    rintro rfl
    exact settled still
  · rw [Finset.card_erase_add_one listed]
    exact bound

theorem owes_of_upkept {records : List InRecord} {other : PitId}
    (upkept : Upkept id records before after) (owes : after.Owes face other) :
    before.Owes face other ∨ other = id ∧ ∃ record ∈ records, record.face = face := by
  obtain ⟨entry, found, waits⟩ := owes
  by_cases mine : other = id
  · rw [mine] at found
    rw [upkept.inRecords found] at waits
    exact Or.inr ⟨mine, waits⟩
  · rw [upkept.change.entries other mine] at found
    exact Or.inl ⟨entry, found, waits⟩

/-- An entry that nobody waits for any more is owed nothing. -/
theorem owes_of_answered {other : PitId} (upkept : Upkept id [] before after)
    (owes : after.Owes face other) : before.Owes face other := by
  rcases owes_of_upkept upkept owes with old | ⟨_, record, impossible, _⟩
  · exact old
  · cases impossible

/-- An entry that keeps its downstreams is owed as before. -/
theorem owes_of_kept {other : PitId} {entry : PitEntry}
    (found : before.pit.get? id = some entry) (upkept : Upkept id entry.inRecords before after)
    (owes : after.Owes face other) : before.Owes face other := by
  rcases owes_of_upkept upkept owes with old | ⟨rfl, waits⟩
  · exact old
  · exact ⟨entry, found, waits⟩

/-- The sender of an Interest may be a downstream from now on, and nobody else. -/
theorem owes_of_forwarded {other : PitId} (forwarded : Forwarded (before.pit.insert interest.name).1
      (PitEntry.putRecord InRecord.face (before.newInRecord source interest)
        (before.entryFor interest.name).inRecords) before after) (owes : after.Owes face other) :
    before.Owes face other ∨ face = source ∧ other = (before.pit.insert interest.name).1 := by
  rcases owes_of_upkept forwarded.upkept owes with old | ⟨rfl, record, member, same⟩
  · exact Or.inl old
  · rcases PitEntry.mem_putRecord member with rfl | old
    · exact Or.inr ⟨same.symm, rfl⟩
    · obtain ⟨entry, found, member⟩ := exists_of_mem_entryFor old
      exact Or.inl ⟨entry, found, record, member, same⟩

theorem owes_of_outcome {other : PitId} (outcome : Outcome source interest before after)
    (owes : after.Owes face other) : before.Owes face other ∨ face = source := by
  cases outcome with
  | refused change same =>
    rw [same] at owes
    exact Or.inl owes
  | waits forwarded => exact (owes_of_forwarded forwarded owes).imp_right And.left
  | answered upkept => exact Or.inl (owes_of_answered upkept owes)

/-- Data that answers an entry leaves nobody waiting. -/
theorem not_owes_of_settled {entry : PitEntry} {data : Data} {due : Instant}
    (settled : after.SettledAt id entry source data due) : ¬ after.Owes face id := by
  rintro ⟨owner, found, record, member, _⟩
  obtain ⟨timer, _, _, here⟩ := settled
  cases here.symm.trans found
  cases member

/-- A face becomes a downstream by an Interest of its own only. -/
theorem Sound.owes_of_act (sound : Sound forwarder) (owes : (forwarder.act action).Owes face id) :
    forwarder.Owes face id ∨ ∃ interest, action = .receiveInterest face interest := by
  rcases sound.quiet_or_touches id action with quiet | touches
  · obtain ⟨entry, found, waits⟩ := owes
    rw [quiet.entry] at found
    exact Or.inl ⟨entry, found, waits⟩
  · have interests (source : FaceId) (interest : Interest)
        (owes : (forwarder.receiveInterest source interest).Owes face id) :
        forwarder.Owes face id ∨
          ∃ other, Action.receiveInterest source interest = .receiveInterest face other := by
      rcases owes_of_outcome (outcome_receiveInterest sound source interest) owes with old | same
      · exact Or.inl old
      · exact Or.inr ⟨interest, by rw [same]⟩
    cases touches with
    | joins => exact interests _ _ owes
    | asks => exact interests _ _ owes
    | @answers source data accepts under =>
      cases found : forwarder.pit.get? id with
      | some entry =>
        have fanned := sound.fannedOut source data accepts.1 accepts.2
        exact absurd owes (not_owes_of_settled (fanned.settled id entry found under))
      | none =>
        obtain ⟨entry, here, _⟩ := owes
        have missing := (sound.fannedOut source data accepts.1 accepts.2).gone id found
        cases missing.symm.trans here
    | @leaves gone after removed =>
      obtain ⟨entry, found, record, member, same⟩ := owes
      rw [act_removeFace removed, (removeFace_spec sound.matched removed).2.2.2] at found
      obtain ⟨old, here, left⟩ := Option.bind_eq_some_iff.mp found
      exact Or.inl ⟨old, here, record, (forget_eq_some left).2 member, same⟩
    | sends other hint newNonce =>
      cases found : forwarder.pit.get? id with
      | some entry =>
        exact Or.inl (owes_of_kept found ((sound.upkept found).sendInterest other hint newNonce) owes)
      | none =>
        simp only [Forwarder.act, Forwarder.sendInterest, found] at owes
        exact Or.inl owes
    | rejects =>
      cases found : forwarder.pit.get? id with
      | some entry => exact Or.inl (owes_of_kept found (sound.upkept found).reject owes)
      | none =>
        simp only [Forwarder.act, Forwarder.reject, found] at owes
        exact Or.inl owes
    | ends popped mine =>
      obtain ⟨entry, found, _⟩ := owes
      rw [act_fireNext_of_popDue? popped, ← mine, (ended_fire sound.matched popped).gone] at found
      cases found

/-- An action that hands the face no Data, and is not an Interest of its own, takes
nothing from its credit. -/
theorem Sound.credit_of_silent (sound : Sound forwarder) (inCredit : forwarder.InCredit face credit)
    (silent : forwarder.dataSent face action = 0)
    (apart : ∀ interest, action ≠ .receiveInterest face interest) :
    ∃ left, (forwarder.act action).InCredit face left ∧
      forwarder.dataSent face action + left ≤ credit := by
  refine ⟨credit, inCredit.keep fun id owes => ?_, by omega⟩
  rcases sound.owes_of_act owes with old | ⟨interest, same⟩
  · exact old
  · exact absurd same (apart interest)

theorem credit_receiveInterest (sound : Sound forwarder)
    (inCredit : forwarder.InCredit face credit) (source : FaceId) (interest : Interest) :
    ∃ left, (forwarder.receiveInterest source interest).InCredit face left ∧
      forwarder.dataSent face (.receiveInterest source interest) + left ≤
        credit + if source == face then 1 else 0 := by
  have hands := HandsOut.receivesInterest source interest
  have same : forwarder.act (.receiveInterest source interest) =
    forwarder.receiveInterest source interest := rfl
  cases outcome_receiveInterest sound source interest with
  | refused change refused =>
    have silent : forwarder.sends (.receiveInterest source interest) = [] :=
      sends_of_outbox (by rw [same, refused]; rfl)
    refine ⟨credit, inCredit.keep fun id owes => by rw [refused] at owes; exact owes, ?_⟩
    rw [dataSent, silent, List.countP_nil]
    omega
  | waits forwarded =>
    obtain ⟨packets, sent, asked⟩ := forwarded.sent
    have none : forwarder.dataSent face (.receiveInterest source interest) = 0 := by
      rw [dataSent, hands.sends_eq sent, List.countP_eq_zero]
      intro out member
      obtain ⟨⟨request, isRequest, _⟩, _, _⟩ := asked out member
      simp [isRequest, Packet.isData, Packet.isInterest]
    rw [none]
    by_cases own : source = face
    · have more : ∀ other, (forwarder.receiveInterest source interest).Owes face other →
          forwarder.Owes face other ∨ other = (forwarder.pit.insert interest.name).1 :=
        fun other owes => (owes_of_forwarded forwarded owes).imp_right And.right
      exact ⟨credit + 1, inCredit.earn more, by simp [own]⟩
    · refine ⟨credit, inCredit.keep fun id owes => ?_, by omega⟩
      rcases owes_of_forwarded forwarded owes with old | ⟨mine, _⟩
      · exact old
      · exact absurd mine.symm own
  | @answered packets upkept sent one =>
    refine ⟨credit, inCredit.keep fun id owes => owes_of_answered upkept owes, ?_⟩
    rw [dataSent, hands.sends_eq sent]
    rcases one with rfl | ⟨data, rfl⟩
    · simp
    · cases own : source == face <;> simp [own, Packet.isData, Packet.isInterest]
      omega

theorem credit_receiveData (sound : Sound forwarder) (inCredit : forwarder.InCredit face credit)
    (source : FaceId) (data : Data) :
    ∃ left, (forwarder.receiveData source data).InCredit face left ∧
      forwarder.dataSent face (.receiveData source data) + left ≤ credit := by
  have apart : ∀ interest, Action.receiveData source data ≠ .receiveInterest face interest :=
    fun _ impossible => by cases impossible
  have fewer : ∀ id, (forwarder.act (.receiveData source data)).Owes face id →
      forwarder.Owes face id := by
    intro id owes
    rcases sound.owes_of_act owes with old | ⟨interest, same⟩
    · exact old
    · exact absurd same (apart interest)
  by_cases accepts : forwarder.Accepts source data.name
  · have fanned := sound.fannedOut source data accepts.1 accepts.2
    obtain ⟨downstreams, once, listed, sent⟩ := fanned.sent
    have counted : forwarder.dataSent face (.receiveData source data) = downstreams.count face := by
      rw [dataSent, (HandsOut.receivesData source data).sends_eq sent, List.countP_map, List.count]
      refine List.countP_congr fun other _ => ?_
      simp [Packet.isData, Packet.isInterest]
    have atMost := List.nodup_iff_count_le_one.mp once face
    by_cases member : face ∈ downstreams
    · -- The face waits in some entry, and that one is settled now.
      obtain ⟨⟨id, entry, record, found, under, waits, same, _⟩, _⟩ := (listed face).mp member
      obtain ⟨left, inCredit', bound⟩ := inCredit.spend fewer ⟨entry, found, record, waits, same⟩
        (not_owes_of_settled (fanned.settled id entry found under))
      exact ⟨left, inCredit', by omega⟩
    · rw [List.count_eq_zero_of_not_mem member] at counted
      exact sound.credit_of_silent inCredit counted apart
  · obtain ⟨contentStore, counters, same⟩ := receiveData_of_refused accepts
    have silent : forwarder.sends (.receiveData source data) = [] :=
      sends_of_outbox (by rw [act, same])
    refine sound.credit_of_silent inCredit ?_ apart
    rw [dataSent, silent, List.countP_nil]

/-- Data that goes to a face is paid for by its Interests. -/
theorem Sound.credit_act (sound : Sound forwarder) (inCredit : forwarder.InCredit face credit)
    (indirect : ∀ data, action ≠ .sendData data face) :
    ∃ left, (forwarder.act action).InCredit face left ∧ forwarder.dataSent face action + left ≤
      credit + if action.isInterestFrom face then 1 else 0 := by
  by_cases hands : HandsOut action
  · cases hands with
    | receivesInterest source interest => exact credit_receiveInterest sound inCredit source interest
    | receivesData source data => exact credit_receiveData sound inCredit source data
    | sendsInterest id other hint newNonce =>
      refine sound.credit_of_silent inCredit ?_ (fun _ impossible => by cases impossible)
      have hands := HandsOut.sendsInterest id other hint newNonce
      rcases forwarder.sent_sendInterest id other hint newNonce with
        ⟨outbox, _⟩ | ⟨_, _, request, _, _, _, _, _, sent, _⟩
      · have silent : forwarder.sends (.sendInterest id other hint newNonce) = [] :=
          sends_of_outbox outbox
        rw [dataSent, silent, List.countP_nil]
      · rw [dataSent, hands.sends_eq sent]
        simp [Packet.isData, Packet.isInterest]
    | sendsData data other =>
      refine sound.credit_of_silent inCredit ?_ (fun _ impossible => by cases impossible)
      have different : other ≠ face := fun same => indirect data (by rw [same])
      rw [dataSent, (HandsOut.sendsData data other).sends_eq (sent_sendData data other)]
      split <;> simp [different]
  · obtain ⟨left, inCredit', bound⟩ := sound.credit_of_silent inCredit
      (by rw [dataSent, sends_eq_nil hands, List.countP_nil])
      (fun interest same => hands (by rw [same]; exact .receivesInterest face interest))
    exact ⟨left, inCredit', by omega⟩

theorem Sound.dataTo_le (sound : Sound forwarder) (inCredit : forwarder.InCredit face credit)
    {actions : List Action} (indirect : ∀ data, .sendData data face ∉ actions) :
    forwarder.dataTo face actions ≤ credit + interestsFrom face actions := by
  -- What is not spent in one action is credit for the next.
  induction actions generalizing forwarder credit with
  | nil => exact Nat.zero_le _
  | cons action rest ih =>
    have first : ∀ data, action ≠ .sendData data face := by
      rintro data rfl
      exact indirect data List.mem_cons_self
    obtain ⟨left, inCredit', bound⟩ := sound.credit_act inCredit first
    have later := ih (sound.act action) inCredit'
      (fun data member => indirect data (List.mem_cons_of_mem action member))
    rw [dataTo, interestsFrom, List.countP_cons, ← interestsFrom]
    omega

variable {settings : Settings} {contentStore : ContentStore} {counters : Counters}
  {nonces : NonceSource} {start : Forwarder}

/-- Flow balance: unless the host hands Data to a face itself, no more Data goes to
the face than Interests have come in on it. -/
theorem data_is_asked_for (made : withParts settings contentStore counters nonces = .ok start)
    {actions : List Action} (face : FaceId) (indirect : ∀ data, .sendData data face ∉ actions) :
    start.dataTo face actions ≤ interestsFrom face actions := by
  have inCredit : start.InCredit face 0 := by
    refine ⟨∅, le_rfl, fun id owes => ?_⟩
    obtain ⟨_, _, rfl⟩ := eq_of_withParts made
    obtain ⟨entry, found, _⟩ := owes
    cases (Pit.get?_empty id).symm.trans found
  have balance := (sound_start made).dataTo_le inCredit indirect
  omega

/-- A face asks for two names, which one Data packet answers, and then asks again,
which the cache answers. -/
def asksThrice : List Action :=
  [.addFace { isLocal := false }, .addFace { isLocal := false },
    .receiveInterest ⟨256⟩ { name := ⟨[[97]]⟩, nonce := 5 },
    .receiveInterest ⟨256⟩ { name := ⟨[[97], [98]]⟩, nonce := 6 },
    .receiveData ⟨257⟩ { name := ⟨[[97], [98]]⟩, content := [1] },
    .receiveInterest ⟨256⟩ { name := ⟨[[97]]⟩, nonce := 7 }]

theorem data_is_asked_for_thrice :
    (∀ data, .sendData data ⟨256⟩ ∉ asksThrice) ∧ usual.dataTo ⟨256⟩ asksThrice = 2 ∧
      interestsFrom ⟨256⟩ asksThrice = 3 ∧
      usual.dataTo ⟨256⟩ asksThrice ≤ interestsFrom ⟨256⟩ asksThrice := by
  have indirect : ∀ data, .sendData data ⟨256⟩ ∉ asksThrice := by simp [asksThrice]
  exact ⟨indirect, by decide, by decide, data_is_asked_for ofSettings_usual ⟨256⟩ indirect⟩

end Forwarder

end NamedData
