import NamedData.Proofs.Bookkeeping
import NamedData.Proofs.NonceMemory

namespace NamedData

namespace Forwarder

variable {action : Action} {before after forwarder : Forwarder} {id : PitId}

theorem Leave.sender {face : FaceId} {hint : Option String} {newNonce : Bool}
    (leave : forwarder.Leave id face hint newNonce action) : Sender action := by
  cases leave with
  | chosen => exact .receives _ _
  | wanted => exact .sends _ _ _ _

/-- No such action ends an entry. -/
theorem Sender.endless (sender : Sender action) : ¬ Ends action := by
  cases sender <;> rintro ⟨⟩

theorem outRecords_le_of_canForward {face : FaceId} (usable : forwarder.canForward id face = true)
    {entry : PitEntry} (found : forwarder.pit.get? id = some entry) {record : OutRecord}
    (member : record ∈ entry.outRecords) (same : record.face = face) :
    record.expiry ≤ forwarder.now := by
  unfold canForward at usable
  rw [found] at usable
  have idle := (Bool.and_eq_true_iff.mp (Bool.and_eq_true_iff.mp usable).1).1
  rw [Bool.not_eq_true', List.any_eq_false] at idle
  have expired := idle record member
  simp only [same, BEq.rfl, Bool.true_and, decide_eq_true_eq] at expired
  exact Nat.not_lt.mp expired

/-- Why a face that was asked for an entry may be asked again, though its answer
was awaited still. -/
inductive Frees (forwarder : Forwarder) (id : PitId) (face : FaceId) : Action → Prop
  /-- Data from the face has answered the entry. -/
  | answered {data : Data} (accepts : forwarder.Accepts face data.name)
      (under : id.name.isPrefixOf data.name = true) :
      Frees forwarder id face (.receiveData face data)
  /-- The face has gone away. -/
  | removed {after : Forwarder} (removed : forwarder.removeFace face = .ok after) :
      Frees forwarder id face (.removeFace face)
  /-- The entry has ended. -/
  | ended {action : Action} (live : ∃ entry, forwarder.pit.get? id = some entry)
      (gone : (forwarder.act action).pit.get? id = none) (cause : Ends action) :
      Frees forwarder id face action

/-- A face that was asked is still noted with the entry. -/
def Noted (forwarder : Forwarder) (id : PitId) (record : OutRecord) : Prop :=
  ∃ entry, forwarder.pit.get? id = some entry ∧ record ∈ entry.outRecords

/-- What becomes in a step of a face whose answer is awaited. -/
inductive Awaited (action : Action) (faces : FaceTable) (after : Forwarder) (id : PitId)
    (record : OutRecord) : Prop
  | still (noted : after.Noted id record)
  | answered {data : Data} (cause : action = .receiveData record.face data)
      (present : faces.contains record.face = true)
      (inScope : ¬ (faces.isLocal record.face = false ∧ Name.localhost.isPrefixOf data.name = true))
      (under : id.name.isPrefixOf data.name = true)
  | removed (cause : action = .removeFace record.face)
  | ended (gone : after.pit.get? id = none) (cause : Ends action)

theorem Step.awaited (step : Step action before after) (filed : before.pit.Filed)
    {record : OutRecord} (noted : before.Noted id record) (awaits : before.now < record.expiry)
    (apart : ∀ hint newNonce, action ≠ .sendInterest id record.face hint newNonce) :
    Awaited action before.faces after id record := by
  obtain ⟨entry, found, member⟩ := noted
  have fate := step.fate filed id
  rw [found] at fate
  generalize here : after.pit.get? id = now at fate
  cases fate with
  | kept => exact .still ⟨entry, here, member⟩
  | ended _ cause => exact .ended here cause
  | edited edit =>
    cases edit with
    | retimed => exact .still ⟨_, here, member⟩
    | joined => exact .still ⟨_, here, member⟩
    | cleared => exact .still ⟨_, here, member⟩
    | @asked face hint newNonce nonce lifetime present leave =>
      refine .still ⟨_, here, PitEntry.mem_putRecord_of_ne member fun same => ?_⟩
      rw [filed.own found] at leave
      cases leave with
      | chosen usable =>
        exact Nat.not_le.mpr awaits (outRecords_le_of_canForward usable found member same)
      | wanted => exact apart hint newNonce (by rw [same])
    | @settled source data cause accepts under =>
      by_cases mine : record.face = source
      · subst mine
        rw [filed.named found] at under
        exact .answered cause accepts.1 accepts.2 under
      · exact .still ⟨_, here, List.mem_filter.mpr ⟨member, bne_iff_ne.mpr mine⟩⟩
    | @forgotten face cause =>
      by_cases mine : record.face = face
      · subst mine
        exact .removed cause
      · exact .still ⟨_, here, List.mem_filter.mpr ⟨member, bne_iff_ne.mpr mine⟩⟩

theorem Steps.awaited (steps : Steps action before after) (filed : before.pit.Filed)
    {record : OutRecord} (noted : before.Noted id record) (awaits : before.now < record.expiry)
    (apart : ∀ hint newNonce, action ≠ .sendInterest id record.face hint newNonce) :
    Awaited action before.faces after id record := by
  induction steps with
  | refl => exact .still noted
  | tail earlier step ih =>
    obtain ⟨faces, now⟩ := Steps.fixed earlier
    have filed' := Steps.filed earlier filed
    cases ih with
    | still noted =>
      rw [← now] at awaits
      rw [← faces]
      exact step.awaited filed' noted awaits apart
    | answered cause present inScope under => exact .answered cause present inScope under
    | removed cause => exact .removed cause
    | ended gone cause =>
      have fate := step.fate filed' id
      rw [gone] at fate
      generalize here : Pit.get? _ id = now at fate
      cases fate with
      | kept => exact .ended here cause
      | made impossible =>
        rw [impossible] at cause
        cases cause

/-- While the answer of a face is awaited for an entry, the host does not send it
there again. -/
theorem Sound.noted_act (sound : Sound forwarder) {record : OutRecord}
    (noted : forwarder.Noted id record) (awaits : (forwarder.act action).now < record.expiry)
    (apart : ∀ hint newNonce, action ≠ .sendInterest id record.face hint newNonce) :
    (forwarder.act action).Noted id record ∨ forwarder.Frees id record.face action := by
  have filed := sound.matched.filed
  have steps := act_steps filed action
  have begins : (forwarder.begun action).Noted id record := by
    rw [Noted, pit_begun]
    exact noted
  rw [(Steps.fixed steps).2] at awaits
  cases Steps.awaited steps (filed_begun filed action) begins awaits apart with
  | still noted => exact Or.inl noted
  | answered cause present inScope under =>
    subst cause
    exact Or.inr (.answered ⟨present, inScope⟩ under)
  | removed cause =>
    subst cause
    cases removed : forwarder.removeFace record.face with
    | ok after => exact Or.inr (.removed removed)
    | error error =>
      refine Or.inl ?_
      simp only [Forwarder.act, removed, Except.toOption, Option.getD_none]
      exact noted
  | ended gone cause =>
    obtain ⟨entry, found, _⟩ := noted
    exact Or.inr (.ended ⟨entry, found⟩ gone cause)

/-- The host changes routes by the operations on routes, and sends an Interest
itself only where a strategy may send it. -/
structure Restrained (start : Forwarder) (actions : List Action) : Prop where
  routes : ∀ {change : Fib → Fib}, Action.changeRoutes change ∈ actions →
    ∀ {fib : Fib}, fib.Made → (change fib).Made
  sends : ∀ {earlier later : List Action} {id : PitId} {face : FaceId} {hint : Option String}
    {newNonce : Bool}, actions = earlier ++ .sendInterest id face hint newNonce :: later →
    (start.run earlier).canForward id face = true

/-- A host that sends no Interest itself is restrained. -/
theorem Restrained.of_silent {start : Forwarder} {actions : List Action}
    (routes : ∀ {change : Fib → Fib}, Action.changeRoutes change ∈ actions →
      ∀ {fib : Fib}, fib.Made → (change fib).Made)
    (silent : ∀ id face hint newNonce, Action.sendInterest id face hint newNonce ∉ actions) :
    Restrained start actions where
  routes := routes
  sends same := absurd (by rw [same]; exact List.mem_append_right _ List.mem_cons_self)
    (silent _ _ _ _)

theorem Restrained.tail {first : Action} {rest : List Action}
    (restrained : Restrained forwarder (first :: rest)) : Restrained (forwarder.act first) rest where
  routes member := restrained.routes (List.mem_cons_of_mem first member)
  sends {earlier _ _ _ _ _} same :=
    @Restrained.sends _ _ restrained (first :: earlier) _ _ _ _ _ (by rw [same]; rfl)

theorem Restrained.drop {earlier later : List Action}
    (restrained : Restrained forwarder (earlier ++ later)) :
    Restrained (forwarder.run earlier) later := by
  induction earlier generalizing forwarder with
  | nil => exact restrained
  | cons first rest ih => exact ih restrained.tail

theorem Restrained.take {earlier later : List Action}
    (restrained : Restrained forwarder (earlier ++ later)) : Restrained forwarder earlier where
  routes member := restrained.routes (List.mem_append_left later member)
  sends same := restrained.sends (by rw [same, List.append_assoc]; rfl)

theorem Restrained.apart {first : Action} {rest : List Action}
    (restrained : Restrained forwarder (first :: rest)) {record : OutRecord}
    (noted : forwarder.Noted id record) (awaits : forwarder.now < record.expiry)
    (hint : Option String) (newNonce : Bool) :
    first ≠ .sendInterest id record.face hint newNonce := by
  rintro rfl
  obtain ⟨entry, found, member⟩ := noted
  have usable : forwarder.canForward id record.face = true :=
    @Restrained.sends _ _ restrained [] _ _ _ _ _ rfl
  exact Nat.not_le.mpr awaits (outRecords_le_of_canForward usable found member rfl)

theorem Sound.noted_run (sound : Sound forwarder) {actions : List Action}
    (restrained : Restrained forwarder actions) {record : OutRecord}
    (noted : forwarder.Noted id record) (awaits : (forwarder.run actions).now < record.expiry) :
    (forwarder.run actions).Noted id record ∨ ∃ past action rest,
      actions = past ++ action :: rest ∧ (forwarder.run past).Frees id record.face action := by
  induction actions generalizing forwarder with
  | nil => exact Or.inl noted
  | cons first rest ih =>
    have later : (forwarder.act first).now < record.expiry :=
      Nat.lt_of_le_of_lt ((sound.act first).now_le_run rest) awaits
    have early : forwarder.now < record.expiry :=
      Nat.lt_of_le_of_lt (sound.now_le_run (first :: rest)) awaits
    rcases sound.noted_act noted later (restrained.apart noted early) with still | frees
    · rcases ih (sound.act first) restrained.tail still awaits with last | ⟨past, action, rest', same, frees⟩
      · exact Or.inl last
      · exact Or.inr ⟨first :: past, action, rest', by rw [same]; rfl, frees⟩
    · exact Or.inr ⟨[], first, rest, rfl, frees⟩

theorem Step.renewed (step : Step action before after) (filed : before.pit.Filed)
    (sender : Sender action) {record : OutRecord} (noted : before.Noted id record)
    (fresh : record.renewed = before.now) :
    ∃ last, after.Noted id last ∧ last.face = record.face ∧ last.renewed = after.now := by
  obtain ⟨entry, found, member⟩ := noted
  have now := step.fixed.2
  have fate := step.fate filed id
  rw [found] at fate
  generalize here : after.pit.get? id = later at fate
  have stays {edited : PitEntry} (found : after.pit.get? id = some edited)
      (member : record ∈ edited.outRecords) :
      ∃ last, after.Noted id last ∧ last.face = record.face ∧ last.renewed = after.now :=
    ⟨record, ⟨edited, found, member⟩, rfl, fresh.trans now.symm⟩
  cases fate with
  | kept => exact stays here member
  | ended _ cause => exact absurd cause sender.endless
  | edited edit =>
    cases edit with
    | retimed => exact stays here member
    | joined => exact stays here member
    | cleared => exact stays here member
    | @asked face hint newNonce nonce lifetime =>
      by_cases same : record.face = face
      · exact ⟨_, ⟨_, here, PitEntry.self_mem_putRecord _ _ _⟩, same.symm, now.symm⟩
      · exact stays here (PitEntry.mem_putRecord_of_ne member same)
    | settled cause => cases sender <;> cases cause
    | forgotten cause => cases sender <;> cases cause

theorem Steps.renewed (steps : Steps action before after) (filed : before.pit.Filed)
    (sender : Sender action) {record : OutRecord} (noted : before.Noted id record)
    (fresh : record.renewed = before.now) :
    ∃ last, after.Noted id last ∧ last.face = record.face ∧ last.renewed = after.now := by
  induction steps with
  | refl => exact ⟨record, noted, rfl, fresh⟩
  | tail earlier step ih =>
    obtain ⟨last, noted', same, fresh'⟩ := ih
    obtain ⟨final, noted'', same', fresh''⟩ :=
      step.renewed (Steps.filed earlier filed) sender noted' fresh'
    exact ⟨final, noted'', same'.trans same, fresh''⟩

/-- A face that got an Interest is noted with it. -/
theorem Sound.noted_of_sent (sound : Sound forwarder) (tidy : forwarder.Tidy) {face : FaceId}
    {request : Interest} (sent : (face, .interest request) ∈ forwarder.sends action) :
    ∃ id record, id.name = request.name ∧ (forwarder.act action).Noted id record ∧
      record.face = face ∧ record.nonce = request.nonce ∧
      record.renewed = (forwarder.act action).now := by
  have filed := sound.matched.filed
  obtain ⟨here, next, steps, gives, rest⟩ := gives_of_sends filed sent
  have filed' := gives.step.filed (Steps.filed steps (filed_begun filed action))
  cases gives with
  | @interest id entry face record hint newNonce found _ _ spoken _ leave =>
    have same := sound.named steps found (speaker?_mem spoken)
    have asked : (here.emitInterest id face record.interest hint newNonce).Noted id
        ⟨face, (here.outgoing record.interest newNonce).nonce, here.now,
          here.now + here.lifetimeOf record.interest⟩ :=
      ⟨_, get?_emitInterest found face record.interest hint newNonce,
        PitEntry.self_mem_putRecord _ _ _⟩
    have fresh : here.now = (here.emitInterest id face record.interest hint newNonce).now := by
      rw [emitInterest_eq]
      rfl
    obtain ⟨last, ⟨kept, found', member⟩, sameFace, renewed⟩ :=
      Steps.renewed rest filed' leave.sender asked fresh
    -- The entry that was asked for is the only one of its name, and notes the face once.
    obtain ⟨other, named, asked'⟩ := sound.asked_of_sent sent
    obtain ⟨entry', here', record', member', face', nonce'⟩ := asked'.live
    have mine : other = id := by
      refine (sound.act action).matched.filed.id_eq_of_name here' found' (named.trans ?_)
      rw [← (Steps.filed steps (filed_begun filed action)).named found, ← same]
      exact name_outgoing record.interest newNonce
    subst mine
    cases found'.symm.trans here'
    have one : last = record' := ((tidy.act filed action).neat found').outRecord_eq member member'
      (sameFace.trans face'.symm)
    exact ⟨other, last, named, ⟨kept, found', member⟩, sameFace, by rw [one]; exact nonce', renewed⟩

/-- While the answer of a face is awaited, the face gets no Interest of that name. -/
theorem Sound.name_ne_of_sent (sound : Sound forwarder) {record : OutRecord}
    (noted : forwarder.Noted id record) (awaits : forwarder.now < record.expiry)
    (apart : ∀ hint newNonce, action ≠ .sendInterest id record.face hint newNonce)
    {face : FaceId} (same : record.face = face) {request : Interest}
    (sent : (face, .interest request) ∈ forwarder.sends action) : request.name ≠ id.name := by
  intro sameName
  have filed := sound.matched.filed
  obtain ⟨here, next, steps, gives, _⟩ := gives_of_sends filed sent
  have filed' := Steps.filed steps (filed_begun filed action)
  cases gives with
  | @interest other entry face speaker hint newNonce found _ _ spoken _ leave =>
    have begins : (forwarder.begun action).Noted id record ∧
        (forwarder.begun action).now < record.expiry := by
      cases leave.sender <;> exact ⟨noted, awaits⟩
    have sameNow := (Steps.fixed steps).2
    cases Steps.awaited steps (filed_begun filed action) begins.1 begins.2 apart with
    | still noted' =>
      obtain ⟨entry', found', member⟩ := noted'
      have mine : other = id := by
        refine filed'.id_eq_of_name found found' ?_
        rw [← sameName, ← filed'.named found, ← sound.named steps found (speaker?_mem spoken)]
        exact (name_outgoing speaker.interest newNonce).symm
      subst mine
      cases leave with
      | chosen usable =>
        have expired := outRecords_le_of_canForward usable found' member same
        rw [sameNow] at expired
        exact Nat.not_le.mpr begins.2 expired
      | wanted => exact apart hint newNonce (by rw [same])
    | answered cause => cases leave.sender <;> cases cause
    | removed cause => cases leave.sender <;> cases cause
    | ended _ cause => exact leave.sender.endless cause

theorem HandsOutOnce.sends (once : HandsOutOnce forwarder (forwarder.act action))
    (gained : forwarder.sends action =
      (forwarder.act action).outbox.sent.drop forwarder.outbox.sent.length) :
    (((forwarder.sends action).filter (·.2.isInterest)).map (·.1)).Nodup := by
  obtain ⟨packets, sent, singly⟩ := once
  rw [gained, sent, List.drop_left]
  exact singly

/-- One action makes at most one Interest go out of each face. -/
theorem Sound.once_of_sends (sound : Sound forwarder) (routes : forwarder.fib.Made)
    (action : Action) : (((forwarder.sends action).filter (·.2.isInterest)).map (·.1)).Nodup := by
  by_cases sender : Sender action
  · cases sender with
    | receives source interest =>
      exact HandsOutOnce.sends (.receiveInterest sound.matched routes.distinct source interest) rfl
    | sends id face hint newNonce =>
      exact HandsOutOnce.sends (.sendInterest id face hint newNonce) rfl
  · have nothing : (forwarder.sends action).filter (·.2.isInterest) = [] := by
      rw [List.filter_eq_nil_iff]
      intro out sent asks
      obtain ⟨here, next, _, gives, _⟩ := gives_of_sends sound.matched.filed sent
      cases gives with
      | interest _ _ _ _ _ leave => exact sender leave.sender
      | data => cases asks
    rw [nothing]
    exact List.nodup_nil

theorem Sound.routes_run (sound : Sound forwarder) {actions : List Action}
    (restrained : Restrained forwarder actions) (routes : forwarder.fib.Made) :
    (forwarder.run actions).fib.Made := by
  induction actions generalizing forwarder with
  | nil => exact routes
  | cons first rest ih =>
    refine ih (sound.act first) restrained.tail (routes_act sound.matched.filed routes ?_)
    rintro change rfl
    exact restrained.routes List.mem_cons_self routes

variable {settings : Settings} {contentStore : ContentStore} {counters : Counters}
  {nonces : NonceSource} {start : Forwarder}

/-- Interests of one name are aggregated. Between two that go out of one face, the
wait for the answer to the first ran out, or the face answered it or went away, or
the entry ended. One action makes at most one go out of each face. -/
theorem interests_are_aggregated
    (made : withParts settings contentStore counters nonces = .ok start) {actions : List Action}
    (restrained : Restrained start actions) :
    (∀ {earlier between later : List Action} {first second : Action} {face : FaceId}
      {request again : Interest}, actions = earlier ++ first :: (between ++ second :: later) →
      (face, .interest request) ∈ (start.run earlier).sends first →
      (face, .interest again) ∈ (start.run (earlier ++ first :: between)).sends second →
      again.name = request.name →
      ∃ id record, id.name = request.name ∧ ((start.run earlier).act first).Noted id record ∧
        record.face = face ∧ record.nonce = request.nonce ∧
        record.renewed = ((start.run earlier).act first).now ∧
        (record.expiry ≤ (start.run (earlier ++ first :: between)).now ∨
          ∃ past action rest, between = past ++ action :: rest ∧
            (start.run (earlier ++ first :: past)).Frees id face action)) ∧
    ∀ {earlier later : List Action} {action : Action}, actions = earlier ++ action :: later →
      ((((start.run earlier).sends action).filter (·.2.isInterest)).map (·.1)).Nodup := by
  have begins := sound_start made
  refine ⟨?_, ?_⟩
  · rintro earlier between later first second face request again rfl sent sent' sameName
    have sound := begins.run earlier
    have tidy := begins.tidy_run (tidy_start made) earlier
    obtain ⟨id, record, named, noted, sameFace, sameNonce, renewed⟩ := sound.noted_of_sent tidy sent
    refine ⟨id, record, named, noted, sameFace, sameNonce, renewed, ?_⟩
    rw [run_append] at sent' ⊢
    by_cases expired : record.expiry ≤ ((start.run earlier).run (first :: between)).now
    · exact Or.inl expired
    · refine Or.inr ?_
      have awaits : (((start.run earlier).act first).run between).now < record.expiry :=
        Nat.not_le.mp expired
      have rest : Restrained ((start.run earlier).act first) (between ++ second :: later) :=
        restrained.drop.tail
      rcases (sound.act first).noted_run rest.take noted awaits with
        still | ⟨past, action, rest', same, frees⟩
      · have apart := rest.drop.apart still awaits
        have other := ((sound.act first).run between).name_ne_of_sent still awaits apart sameFace sent'
        exact absurd (sameName.trans named.symm) other
      · refine ⟨past, action, rest', same, ?_⟩
        rw [run_append, ← sameFace]
        exact frees
  · rintro earlier later action rfl
    refine (begins.run earlier).once_of_sends ?_ action
    refine begins.routes_run restrained.take ?_
    obtain ⟨_, _, rfl⟩ := eq_of_withParts made
    exact .empty

/-- One face asks twice for fresh Data, and in between it gets some that is stale
from the start. -/
def asksTwice : List Action :=
  oneWaits ++ [.receiveData ⟨257⟩ { name := ⟨[[97]]⟩, content := [1] },
    .receiveInterest ⟨256⟩ { name := ⟨[[97]]⟩, nonce := 6, mustBeFresh := true }]

theorem interests_are_aggregated_for_two :
    Restrained usual asksTwice ∧
      (⟨257⟩, .interest { name := ⟨[[97]]⟩, nonce := 5 }) ∈ (usual.run (oneWaits.take 3)).sends
        (.receiveInterest ⟨256⟩ { name := ⟨[[97]]⟩, nonce := 5 }) ∧
      (⟨257⟩, .interest { name := ⟨[[97]]⟩, nonce := 6, mustBeFresh := true }) ∈
        (usual.run (asksTwice.take 5)).sends
          (.receiveInterest ⟨256⟩ { name := ⟨[[97]]⟩, nonce := 6, mustBeFresh := true }) ∧
      ∃ id record, id.name = ⟨[[97]]⟩ ∧ (usual.run oneWaits).Noted id record ∧
        (record.expiry ≤ (usual.run (asksTwice.take 5)).now ∨
          ∃ past action rest,
            [.receiveData ⟨257⟩ { name := ⟨[[97]]⟩, content := [1] }] = past ++ action :: rest ∧
              (usual.run (oneWaits ++ past)).Frees id ⟨257⟩ action) := by
  have restrained : Restrained usual asksTwice := by
    refine .of_silent (fun {change} member {fib} made => ?_) (by simp [asksTwice, oneWaits])
    simp only [asksTwice, oneWaits, List.mem_append, List.mem_cons, reduceCtorEq,
      Action.changeRoutes.injEq, List.not_mem_nil, or_false, false_or] at member
    subst member
    exact .addNextHop _ _ made
  have sent : (⟨257⟩, .interest { name := ⟨[[97]]⟩, nonce := 5 }) ∈
      (usual.run (oneWaits.take 3)).sends
        (.receiveInterest ⟨256⟩ { name := ⟨[[97]]⟩, nonce := 5 }) := by decide
  have sent' : (⟨257⟩, .interest { name := ⟨[[97]]⟩, nonce := 6, mustBeFresh := true }) ∈
      (usual.run (asksTwice.take 5)).sends
        (.receiveInterest ⟨256⟩ { name := ⟨[[97]]⟩, nonce := 6, mustBeFresh := true }) := by decide
  obtain ⟨id, record, named, noted, _, _, _, freed⟩ :=
    (interests_are_aggregated ofSettings_usual restrained).1 rfl sent sent' rfl
  exact ⟨restrained, sent, sent', id, record, named, noted, freed⟩

end Forwarder

end NamedData
