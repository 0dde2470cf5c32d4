import NamedData.Proofs.Forwarding

namespace NamedData

namespace Forwarder

variable {forwarder : Forwarder} {face : FaceId}

/-- What goes one hop from the host leaves it for a local downstream only. -/
theorem onHost_of_inScope {entry : PitEntry} (inScope : forwarder.violatesScope entry face = false)
    (outside : forwarder.faces.isLocal face = false)
    (under : Name.localhop.isPrefixOf entry.name = true) :
    ∃ record ∈ entry.inRecords, forwarder.faces.isLocal record.face = true := by
  unfold violatesScope at inScope
  rw [outside, under] at inScope
  cases onHost : Name.localhost.isPrefixOf entry.name with
  | true =>
    rw [onHost] at inScope
    cases inScope
  | false => simpa [onHost] using inScope

/-- A local face is among the downstreams of an entry that a face is asked for, and
unless the host sends the Interest by itself, another downstream still waits. -/
structure HasLocal (after : Forwarder) (id : PitId) (face : FaceId) (action : Action) : Prop where
  onHost : ∃ entry, after.pit.get? id = some entry ∧
    ∃ record ∈ entry.inRecords, after.faces.isLocal record.face = true
  awaited : (∃ hint newNonce, action = .sendInterest id face hint newNonce) ∨
    ∃ entry, after.pit.get? id = some entry ∧
      ∃ record ∈ entry.inRecords, record.face ≠ face ∧ after.now < record.expiry

variable {request : Interest}

theorem hasLocal_receiveInterest (sound : Sound forwarder) {source : FaceId} {interest : Interest}
    (sent : (face, .interest request) ∈ forwarder.sends (.receiveInterest source interest))
    (outside : forwarder.faces.isLocal face = false)
    (under : Name.localhop.isPrefixOf request.name = true) :
    ∃ id, id.name = request.name ∧ (forwarder.receiveInterest source interest).HasLocal id face
      (.receiveInterest source interest) := by
  obtain ⟨_, _, upkept, ⟨other, isOther, named⟩, inScope, awaited, _⟩ := sound.asks_of_sent sent
  cases isOther
  obtain ⟨entry, found, same, _⟩ := upkept.entry
  have onHost := onHost_of_inScope inScope outside (by rw [named] at under; exact under)
  rw [← same] at onHost awaited
  rw [← upkept.change.faces] at onHost
  rw [← upkept.change.now] at awaited
  exact ⟨_, named.symm, ⟨entry, found, onHost⟩, Or.inr ⟨entry, found, awaited⟩⟩

theorem hasLocal_sendInterest (sound : Sound forwarder) {id : PitId} {asked : FaceId}
    {hint : Option String} {newNonce : Bool}
    (sent : (face, .interest request) ∈ forwarder.sends (.sendInterest id asked hint newNonce))
    (outside : forwarder.faces.isLocal face = false)
    (under : Name.localhop.isPrefixOf request.name = true) :
    id.name = request.name ∧ (forwarder.sendInterest id asked hint newNonce).HasLocal id face
      (.sendInterest id asked hint newNonce) := by
  have hands := HandsOut.sendsInterest id asked hint newNonce
  rcases forwarder.sendInterest_cases id asked hint newNonce with
    ⟨change, same⟩ | ⟨entry, record, found, _, inScope, spoken, _, same⟩
  · have silent : forwarder.sends (.sendInterest id asked hint newNonce) = [] :=
      sends_of_outbox (by rw [act, same]; rfl)
    rw [silent] at sent
    cases sent
  · have gained : (forwarder.act (.sendInterest id asked hint newNonce)).outbox.sent =
        forwarder.outbox.sent ++ [(asked, .interest
          { forwarder.outgoing record.interest newNonce with
            incomingFace := none, targetHint := hint })] := by
      rw [act, same, emitInterest_eq]
      rfl
    rw [hands.sends_eq gained] at sent
    cases List.mem_singleton.mp sent
    have named : id.name = record.interest.name := by
      rw [(sound.recorded found).named (speaker?_mem spoken),
        sound.matched.filed.named found]
    have under' : Name.localhop.isPrefixOf entry.name = true := by
      rw [sound.matched.filed.named found, named, ← name_outgoing record.interest newNonce]
      exact under
    have onHost := onHost_of_inScope inScope outside under'
    have upkept := (sound.upkept found).sendInterest face hint newNonce
    obtain ⟨after, found', kept, _⟩ := upkept.entry
    rw [← kept, ← upkept.change.faces] at onHost
    refine ⟨named.trans (name_outgoing record.interest newNonce).symm, ⟨after, found', onHost⟩, ?_⟩
    exact Or.inl ⟨hint, newNonce, rfl⟩

theorem Sound.hasLocal_of_sent (sound : Sound forwarder) {action : Action}
    (sent : (face, .interest request) ∈ forwarder.sends action)
    (outside : forwarder.faces.isLocal face = false)
    (under : Name.localhop.isPrefixOf request.name = true) :
    ∃ id, id.name = request.name ∧ (forwarder.act action).HasLocal id face action := by
  cases Sender.of_sent sent with
  | receives => exact hasLocal_receiveInterest sound sent outside under
  | sends id => exact ⟨id, hasLocal_sendInterest sound sent outside under⟩

variable {settings : Settings} {contentStore : ContentStore} {counters : Counters}
  {nonces : NonceSource} {start : Forwarder}

/-- An Interest under `/localhop` leaves the host only for an entry that lists a
local face as a downstream, and while another downstream still waits, unless the
host sends it by itself. The wait of the local face may be over, though. -/
theorem localhop_leaves_for_a_local_face
    (made : withParts settings contentStore counters nonces = .ok start)
    (reach : Reach start forwarder) {action : Action}
    (sent : (face, .interest request) ∈ forwarder.sends action)
    (outside : forwarder.faces.isLocal face = false)
    (under : Name.localhop.isPrefixOf request.name = true) :
    ∃ id, id.name = request.name ∧ (forwarder.act action).HasLocal id face action :=
  (reach.sound made).hasLocal_of_sent sent outside under

/-- A request for a name under `/localhop` that lasts for some milliseconds. -/
def hopRequest (nonce : Nonce) (millis : Nat) : Interest :=
  { name := .append .localhop [120], nonce, lifetime := some (Duration.ofMillis millis) }

/-- A local face and one that is not ask in turn, and then the wait of the local
face is over. -/
def hostGivesUp : List Action :=
  [.addFace { isLocal := true }, .addFace { isLocal := false }, .addFace { isLocal := false },
    .changeRoutes (·.addNextHop .root { face := ⟨258⟩, cost := 1 }),
    .receiveInterest ⟨256⟩ (hopRequest 1 100), .receiveInterest ⟨257⟩ (hopRequest 2 4000),
    .passTime (Duration.ofMillis 200)]

theorem localhop_leaves_for_a_local_face_at_once :
    (⟨258⟩, .interest (hopRequest 1 100)) ∈
        (usual.run (hostGivesUp.take 4)).sends (.receiveInterest ⟨256⟩ (hopRequest 1 100)) ∧
      ∃ id, id.name = (hopRequest 1 100).name ∧ (usual.run (hostGivesUp.take 5)).HasLocal id ⟨258⟩
        (.receiveInterest ⟨256⟩ (hopRequest 1 100)) := by
  have sent : (⟨258⟩, .interest (hopRequest 1 100)) ∈
      (usual.run (hostGivesUp.take 4)).sends (.receiveInterest ⟨256⟩ (hopRequest 1 100)) := by decide
  have step : usual.run (hostGivesUp.take 5) =
      (usual.run (hostGivesUp.take 4)).act (.receiveInterest ⟨256⟩ (hopRequest 1 100)) :=
    run_append usual (hostGivesUp.take 4) [.receiveInterest ⟨256⟩ (hopRequest 1 100)]
  rw [step]
  exact ⟨sent, localhop_leaves_for_a_local_face ofSettings_usual (Reach.start.run _) sent
    (by decide) (by decide)⟩

/-- Whether a local face still waits for an entry. -/
def waitsOnHost (forwarder : Forwarder) (id : PitId) : Bool :=
  (forwarder.pit.get? id).any fun entry => entry.inRecords.any fun record =>
    forwarder.faces.isLocal record.face && forwarder.now < record.expiry

/-- An Interest under `/localhop` can leave the host while no local face waits for
it: a record whose time is up still counts for the scope. -/
theorem localhop_outlives_the_wait :
    Name.localhop.isPrefixOf (hopRequest 3 4000).name = true ∧
      (usual.run hostGivesUp).sends (.receiveInterest ⟨257⟩ (hopRequest 3 4000)) =
        [(⟨258⟩, .interest (hopRequest 3 4000))] ∧
      (usual.run hostGivesUp).faces.isLocal ⟨258⟩ = false ∧
      (((usual.run hostGivesUp).act (.receiveInterest ⟨257⟩ (hopRequest 3 4000))).pit.get?
        ⟨1, (hopRequest 3 4000).name⟩).isSome = true ∧
      ((usual.run hostGivesUp).act (.receiveInterest ⟨257⟩ (hopRequest 3 4000))).waitsOnHost
        ⟨1, (hopRequest 3 4000).name⟩ = false := by
  simp only [run_eq_evaluate]
  decide +kernel

end Forwarder

end NamedData
