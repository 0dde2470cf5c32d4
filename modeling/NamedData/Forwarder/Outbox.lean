import NamedData.Forwarder.Receiving

namespace NamedData

/-- How many Interests wait to be collected. -/
def Outbox.interestCount (outbox : Outbox) : Nat := outbox.sent.countP (·.2.isInterest)

namespace Outbox

theorem interestCount_push_data (outbox : Outbox) (face : FaceId) (data : Data) :
    (outbox.push face (.data data)).interestCount = outbox.interestCount := by
  simp [interestCount, push, Packet.isInterest]

/-- Collecting takes Interests away and adds none. -/
theorem interestCount_collect (outbox : Outbox) (face : FaceId) (wanted : Packet → Bool) :
    (outbox.collect face wanted).2.interestCount +
      (outbox.collect face wanted).1.countP (·.isInterest) = outbox.interestCount := by
  obtain ⟨sent⟩ := outbox
  unfold collect queue interestCount
  induction sent with
  | nil => rfl
  | cons entry rest ih =>
    simp only [List.filter_cons, List.countP_cons] at ih ⊢
    by_cases here : entry.1 == face <;> by_cases want : wanted entry.2 <;>
      simp_all [List.countP_cons] <;> omega

theorem length_takeInterests (outbox : Outbox) (face : FaceId) :
    (outbox.takeInterests face).2.interestCount + (outbox.takeInterests face).1.length ≤
      outbox.interestCount := by
  have counted := interestCount_collect outbox face (·.isInterest)
  have shorter : (outbox.takeInterests face).1.length ≤
      (outbox.collect face (·.isInterest)).1.countP (·.isInterest) := by
    show ((outbox.collect face (·.isInterest)).1.filterMap (·.interest?)).length ≤ _
    generalize (outbox.collect face (·.isInterest)).1 = packets
    induction packets with
    | nil => exact Nat.le_refl _
    | cons packet rest ih =>
      rw [List.countP_cons]
      cases packet with
      | interest request => exact Nat.succ_le_succ ih
      | data reply => exact ih
  show (outbox.collect face (·.isInterest)).2.interestCount + _ ≤ _
  omega

end Outbox

namespace Forwarder

theorem outbox_stopTimer (forwarder : Forwarder) (slot : Option TimerId) :
    (forwarder.stopTimer slot).outbox = forwarder.outbox := by
  cases slot <;> rfl

theorem outbox_cancelTimers (forwarder : Forwarder) (id : PitId) :
    (forwarder.cancelTimers id).outbox = forwarder.outbox := by
  unfold cancelTimers
  split
  · rfl
  · show (stopTimer _ _).outbox = _
    rw [outbox_stopTimer, outbox_stopTimer]

theorem outbox_setStragglerTimer (forwarder : Forwarder) (id : PitId) (satisfied : Bool)
    (freshness : Option Duration) :
    (forwarder.setStragglerTimer id satisfied freshness).outbox = forwarder.outbox := by
  unfold setStragglerTimer
  split
  · rfl
  · exact outbox_stopTimer _ _

theorem outbox_noteDeadNonces (forwarder : Forwarder) (id : PitId) (satisfied : Bool)
    (freshness : Option Duration) (outFace : Option FaceId) :
    (forwarder.noteDeadNonces id satisfied freshness outFace).outbox = forwarder.outbox := by
  unfold noteDeadNonces
  split
  · rfl
  · split <;> rfl

theorem outbox_satisfy (source : FaceId) (data : Data) (forwarder : Forwarder) (id : PitId) :
    (forwarder.satisfy source data id).outbox = forwarder.outbox := by
  unfold satisfy
  dsimp only
  split
  · exact outbox_cancelTimers _ _
  · rw [outbox_setStragglerTimer]
    show (noteDeadNonces _ _ _ _ _).outbox = _
    rw [outbox_noteDeadNonces]
    exact outbox_cancelTimers _ _

theorem outbox_satisfyAll (source : FaceId) (data : Data) (forwarder : Forwarder)
    (ids : List PitId) :
    (ids.foldl (satisfy source data) forwarder).outbox = forwarder.outbox := by
  induction ids generalizing forwarder with
  | nil => rfl
  | cons id rest ih => exact (ih _).trans (outbox_satisfy _ _ _ _)

theorem interestCount_sendData (forwarder : Forwarder) (data : Data) (face : FaceId) :
    (forwarder.sendData data face).outbox.interestCount = forwarder.outbox.interestCount := by
  unfold sendData
  split
  · rfl
  · split
    · rfl
    · exact Outbox.interestCount_push_data _ _ _

theorem interestCount_sendAll (forwarder : Forwarder) (data : Data) (faces : List FaceId) :
    (faces.foldl (fun forwarder face => forwarder.sendData data face)
      forwarder).outbox.interestCount = forwarder.outbox.interestCount := by
  induction faces generalizing forwarder with
  | nil => rfl
  | cons face rest ih => exact (ih _).trans (interestCount_sendData _ _ _)

/-- Data never makes a forwarder send an Interest. -/
theorem interestCount_receiveData (forwarder : Forwarder) (face : FaceId) (data : Data) :
    (forwarder.receiveData face data).outbox.interestCount = forwarder.outbox.interestCount := by
  unfold receiveData
  dsimp only
  split
  · rfl
  · split
    · rfl
    · split
      · unfold receiveUnsolicited
        dsimp only
        split <;> rfl
      · unfold receiveSolicited
        dsimp only
        rw [interestCount_sendAll, outbox_satisfyAll]
        rfl

end Forwarder

end NamedData
