import NamedData.Proofs.NonceMemory

namespace NamedData

namespace Forwarder

variable {forwarder : Forwarder} {id : PitId} {face : FaceId} {nonce : Nonce} {action : Action}

/-- How a forwarder comes to forget what it sent to a face for an entry: the face
answers, or goes away, or is sent another nonce. -/
inductive Forgets (forwarder : Forwarder) (id : PitId) (face : FaceId) (nonce : Nonce) : Action → Prop
  | answered {data : Data} (accepts : forwarder.Accepts face data.name)
      (under : id.name.isPrefixOf data.name = true) :
      Forgets forwarder id face nonce (.receiveData face data)
  | left : Forgets forwarder id face nonce (.removeFace face)
  | replaced {action : Action} {request : Interest}
      (sent : (face, .interest request) ∈ forwarder.sends action)
      (named : request.name = id.name) (other : request.nonce ≠ nonce) :
      Forgets forwarder id face nonce action

/-- Nothing of the kind happens in a run. -/
def Undisturbed (id : PitId) (face : FaceId) (nonce : Nonce) : Forwarder → List Action → Prop
  | _, [] => True
  | forwarder, action :: rest =>
    ¬ forwarder.Forgets id face nonce action ∧ Undisturbed id face nonce (forwarder.act action) rest

theorem asked_of_emitted {packets : List (FaceId × Packet)}
    (emitted : Emitted id forwarder (forwarder.act action) packets)
    (asked : forwarder.Asked id face nonce)
    (kept : ¬ forwarder.Forgets id face nonce action)
    (handed : ∀ face wanted, action ≠ .collect face wanted) :
    (forwarder.act action).Asked id face nonce := by
  rcases emitted.kept asked with still | ⟨request, member, other⟩
  · exact still
  · have named := (emitted.noted member).1
    exact absurd (.replaced (mem_sends_of_emitted emitted member handed) named other) kept

/-- What was sent to a face for an entry is noted for as long as the entry is there
and nothing makes the forwarder forget it. -/
theorem Sound.asked_act (sound : Sound forwarder) (asked : forwarder.Asked id face nonce)
    (kept : ¬ forwarder.Forgets id face nonce action) :
    (forwarder.act action).Asked id face nonce ∨ (forwarder.act action).pit.get? id = none := by
  obtain ⟨entry, found, record, member, sameFace, sameNonce⟩ := asked.live
  rcases sound.quiet_or_touches id action with quiet | touches
  · refine Or.inl ?_
    rw [Asked, outRecordsOf, quiet.entry]
    exact asked
  · cases touches with
    | @joins source interest _ mine | @asks source interest _ mine =>
      obtain ⟨packets, emitted⟩ := emitted_receiveInterest sound source interest
      rw [mine] at emitted
      exact Or.inl (asked_of_emitted emitted asked kept fun _ _ impossible => by cases impossible)
    | @answers source data accepts under =>
      obtain ⟨timer, _, _, here⟩ :=
        (sound.fannedOut source data accepts.1 accepts.2).settled id entry found under
      have different : record.face ≠ source := by
        intro same
        rw [sameFace] at same
        subst same
        exact kept (.answered accepts under)
      refine Or.inl ⟨record, ?_, sameFace, sameNonce⟩
      have settled : (forwarder.act (.receiveData source data)).pit.get? id =
        some (entry.settled source timer) := here
      rw [outRecordsOf_of_get? settled]
      exact List.mem_filter.mpr ⟨member, bne_iff_ne.mpr different⟩
    | @leaves other after removed =>
      have different : record.face ≠ other := by
        intro same
        rw [sameFace] at same
        subst same
        exact kept .left
      obtain ⟨_, _, _, entries⟩ := removeFace_spec sound.matched removed
      rw [act_removeFace removed]
      have rest := entries id
      rw [found, Option.bind_some] at rest
      unfold PitEntry.forget at rest
      split at rest
      · exact Or.inr rest
      · refine Or.inl ⟨record, ?_, sameFace, sameNonce⟩
        rw [outRecordsOf_of_get? rest]
        exact List.mem_filter.mpr ⟨member, bne_iff_ne.mpr different⟩
    | sends other hint newNonce =>
      obtain ⟨packets, emitted⟩ := emitted_sendInterest sound id other hint newNonce
      exact Or.inl (asked_of_emitted emitted asked kept fun _ _ impossible => by cases impossible)
    | rejects =>
      have emitted : Emitted id forwarder (forwarder.act (.reject id)) [] :=
        .of_same outbox_reject outRecordsOf_reject
      exact Or.inl (asked_of_emitted emitted asked kept fun _ _ impossible => by cases impossible)
    | @ends limit timer rest popped mine =>
      refine Or.inr ?_
      rw [act_fireNext_of_popDue? popped, ← mine]
      exact (ended_fire sound.matched popped).gone

theorem Asked.number_le (asked : forwarder.Asked id face nonce) (filed : forwarder.pit.Filed) :
    id.number ≤ forwarder.pit.created := by
  obtain ⟨entry, found, _⟩ := asked.live
  exact filed.numbered found

theorem Sound.asked_run (sound : Sound forwarder) {actions : List Action}
    (asked : forwarder.Asked id face nonce)
    (undisturbed : Undisturbed id face nonce forwarder actions)
    (live : ∃ entry, (forwarder.run actions).pit.get? id = some entry) :
    (forwarder.run actions).Asked id face nonce := by
  induction actions generalizing forwarder with
  | nil => exact asked
  | cons action rest ih =>
    obtain ⟨kept, later⟩ := undisturbed
    rcases sound.asked_act asked kept with still | gone
    · exact ih (sound.act action) still later live
    · -- An entry that ended on the way would not be there at the end.
      have old := Nat.le_trans (asked.number_le sound.matched.filed) (sound.onward action).created
      obtain ⟨entry, found⟩ := (sound.act action).live_of_run old live
      rw [gone] at found
      cases found

/-- A nonce is known for a name: it is on the list of dead ones, or the entry of
the name has a record that carries it. -/
inductive Knows (forwarder : Forwarder) (name : Name) (nonce : Nonce) : Prop
  | dead (listed : forwarder.deadNonces.contains name nonce = true)
  | asked {id : PitId} {face : FaceId} (named : id.name = name)
      (asked : forwarder.Asked id face nonce)
  | carried {id : PitId} {entry : PitEntry} {record : InRecord} (named : id.name = name)
      (found : forwarder.pit.get? id = some entry) (member : record ∈ entry.inRecords)
      (same : record.interest.nonce = nonce)

variable {interest : Interest} {name : Name}

theorem unknown_of_request {kept : Interest} (judged : forwarder.judge face interest = .request kept) :
    forwarder.deadNonces.contains interest.name interest.nonce = false ∧
      (forwarder.sighting face interest).isLoop = false ∧
      (forwarder.sighting face interest).isDuplicate = false := by
  unfold judge at judged
  grind

theorem sighting_of_get? (filed : forwarder.pit.Filed) {entry : PitEntry}
    (named : id.name = interest.name) (found : forwarder.pit.get? id = some entry) :
    forwarder.sighting face interest = entry.findNonce interest.nonce face := by
  rw [sighting, ← named, filed.find?_of_get? found, Option.bind_some, found]

theorem unseen_of_unknown {entry : PitEntry} (fresh : (entry.findNonce nonce face).isLoop = false)
    (new : (entry.findNonce nonce face).isDuplicate = false) :
    (∀ record ∈ entry.inRecords, record.interest.nonce ≠ nonce) ∧
      ∀ record ∈ entry.outRecords, record.nonce ≠ nonce := by
  have nowhere : (entry.findNonce nonce face).inSame = false ∧
      (entry.findNonce nonce face).inOther = false ∧
      (entry.findNonce nonce face).outSame = false ∧ (entry.findNonce nonce face).outOther = false := by
    simp only [NonceSighting.isLoop, NonceSighting.isDuplicate, Bool.or_eq_false_iff] at fresh new
    simp only [fresh.1, fresh.2, Bool.or_self, Bool.not_false, Bool.true_and,
      Bool.or_eq_false_iff] at new
    exact ⟨fresh.1, new.1, fresh.2, new.2⟩
  obtain ⟨inSame, inOther, outSame, outOther⟩ := nowhere
  constructor
  · intro record member same
    by_cases mine : record.face = face
    · have seen := List.any_eq_false.mp inSame record member
      simp [same, mine] at seen
    · have seen := List.any_eq_false.mp inOther record member
      simp [same, mine] at seen
  · intro record member same
    by_cases mine : record.face = face
    · have seen := List.any_eq_false.mp outSame record member
      simp [same, mine] at seen
    · have seen := List.any_eq_false.mp outOther record member
      simp [same, mine] at seen

/-- An Interest whose nonce is known makes a forwarder hand out nothing. -/
theorem silent_of_knows (filed : forwarder.pit.Filed)
    (knows : forwarder.Knows interest.name interest.nonce) (face : FaceId) :
    forwarder.sends (.receiveInterest face interest) = [] := by
  refine sends_of_outbox ?_
  show (forwarder.receiveInterest face interest).outbox = forwarder.outbox
  rcases forwarder.receiveInterest_cases face interest with
    ⟨change, same⟩ | ⟨kept, judged | judged⟩
  · rw [same]
    rfl
  · rw [receiveInterest_duplicate judged, outbox_joinDuplicate]
    rfl
  · obtain ⟨alive, fresh, new⟩ := unknown_of_request judged
    cases knows with
    | dead listed =>
      rw [alive] at listed
      cases listed
    | asked named asked =>
      obtain ⟨entry, found, record, member, _, same⟩ := asked.live
      rw [sighting_of_get? filed named found] at fresh new
      exact absurd same ((unseen_of_unknown fresh new).2 record member)
    | carried named found member same =>
      rw [sighting_of_get? filed named found] at fresh new
      exact absurd same ((unseen_of_unknown fresh new).1 _ member)

/-- Why a nonce that was sent to a face for an entry is still known after a run:
the entry is there and nothing made the forwarder forget it, or a downstream of
the entry asked under it last, or the entry was given up before anything made the
forwarder forget it and that is less than the lifetime of dead nonces ago. -/
inductive Remembers (forwarder : Forwarder) (run : List Action) (id : PitId) (face : FaceId)
    (nonce : Nonce) : Prop
  | pending (live : ∃ entry, (forwarder.run run).pit.get? id = some entry)
      (undisturbed : Undisturbed id face nonce forwarder run)
  | carried {entry : PitEntry} {record : InRecord}
      (found : (forwarder.run run).pit.get? id = some entry) (member : record ∈ entry.inRecords)
      (same : record.interest.nonce = nonce)
  | ended {earlier later : List Action} {action : Action} (moment : run = earlier ++ action :: later)
      (undisturbed : Undisturbed id face nonce forwarder (earlier ++ [action]))
      (fails : (forwarder.run earlier).Fails id action)
      (recent : (forwarder.run run).now <
        (forwarder.run (earlier ++ [action])).now + forwarder.deadNonces.lifetime)

theorem undisturbed_append {earlier later : List Action} :
    Undisturbed id face nonce forwarder (earlier ++ later) ↔
      Undisturbed id face nonce forwarder earlier ∧
        Undisturbed id face nonce (forwarder.run earlier) later := by
  induction earlier generalizing forwarder with
  | nil => exact (and_iff_right trivial).symm
  | cons action rest ih =>
    rw [List.cons_append, Undisturbed, ih, Undisturbed, and_assoc]
    rfl

/-- The list of dead nonces is below its capacity at every point of a run. -/
def Roomy (forwarder : Forwarder) (run : List Action) : Prop :=
  ∀ earlier later, run = earlier ++ later →
    (forwarder.run earlier).deadNonces.size < forwarder.deadNonces.capacity

theorem Sound.knows_of_remembers (sound : Sound forwarder)
    (chronicled : forwarder.deadNonces.Chronicled forwarder.now) {run : List Action}
    (roomy : forwarder.Roomy run) (asked : forwarder.Asked id face nonce)
    (remembers : forwarder.Remembers run id face nonce) :
    (forwarder.run run).Knows id.name nonce := by
  cases remembers with
  | pending live undisturbed => exact .asked rfl (sound.asked_run asked undisturbed live)
  | carried found member same => exact .carried rfl found member same
  | @ended earlier later action moment undisturbed fails recent =>
    obtain ⟨quietly, kept, _⟩ := undisturbed_append.mp undisturbed
    have soundThen := sound.run earlier
    have stays : action ≠ .removeFace face := by
      intro same
      subst same
      exact kept .left
    obtain ⟨keys, noted, mine⟩ :=
      soundThen.noted_of_fails fails (sound.asked_run asked quietly fails.live) stays
    have onward := soundThen.onward action
    obtain ⟨chronicledThen, lifetime, capacity⟩ := sound.notes_run chronicled earlier
    have chronicledNext := chronicledThen.mono onward.now
    have setup := onward.notes.setup
    rw [run_append] at recent
    have after : forwarder.run run = ((forwarder.run earlier).act action).run later := by
      rw [moment, run_append]
      rfl
    rw [after] at recent ⊢
    -- The clock does not go back, so the nonce was fresh when it was noted.
    have lasts : ((forwarder.run earlier).act action).now <
        ((forwarder.run earlier).act action).now + (forwarder.run earlier).deadNonces.lifetime := by
      rw [lifetime]
      exact Nat.lt_of_le_of_lt ((soundThen.act action).now_le_run later) recent
    have room : ∀ sooner rest, later = sooner ++ rest →
        (((forwarder.run earlier).act action).run sooner).deadNonces.size <
          forwarder.deadNonces.capacity := by
      intro sooner rest same
      have below := roomy (earlier ++ action :: sooner) rest (by rw [moment, same, List.append_assoc]; rfl)
      rw [run_append] at below
      exact below
    have listed : ((forwarder.run earlier).act action).deadNonces.latest[(id.name, nonce)]? =
        some ((forwarder.run earlier).act action).now := by
      rw [noted]
      refine DeadNonceList.addAll_lists chronicledNext keys ?_ lasts mine
      rw [← noted, capacity]
      exact room [] later rfl
    obtain ⟨time, still⟩ := (soundThen.act action).listed_run
      (onward.notes.chronicled chronicledNext) listed (Nat.le_refl _)
      (by rw [setup.1, lifetime]; exact recent) (by rw [setup.2, capacity]; exact room)
    refine .dead ?_
    rw [DeadNonceList.contains, Std.ExtTreeMap.contains_eq_isSome_getElem?, still]
    rfl

variable {settings : Settings} {contentStore : ContentStore} {counters : Counters}
  {nonces : NonceSource} {start : Forwarder}

theorem chronicled_start (made : withParts settings contentStore counters nonces = .ok start) :
    start.deadNonces.Chronicled start.now := by
  unfold withParts at made
  split at made
  · cases made
  · cases made
    exact DeadNonceList.chronicled_empty _ _ _

/-- An Interest that is sent to a face is sent for an entry, and as long as the
forwarder remembers it no Interest with its name and nonce makes it send
anything, whatever face that comes in on. -/
theorem sent_nonce_is_remembered
    (made : withParts settings contentStore counters nonces = .ok start)
    (history : List Action) (first : Action) (later : List Action) (face : FaceId)
    (request : Interest) (sent : (face, .interest request) ∈ (start.run history).sends first)
    (roomy : ((start.run history).act first).Roomy later) :
    ∃ id entry, id.name = request.name ∧
      ((start.run history).act first).pit.get? id = some entry ∧
      (((start.run history).act first).Remembers later id face request.nonce →
        ∀ (arrival : FaceId) (again : Interest), again.name = request.name →
          again.nonce = request.nonce →
          (start.run (history ++ first :: later)).sends (.receiveInterest arrival again) = []) := by
  have sound := (sound_start made).run history
  have onward := sound.onward first
  obtain ⟨chronicled, _⟩ := (sound_start made).notes_run (chronicled_start made) history
  obtain ⟨id, named, asked⟩ := sound.asked_of_sent sent
  obtain ⟨entry, found, _⟩ := asked.live
  refine ⟨id, entry, named, found, ?_⟩
  intro remembers arrival again sameName sameNonce
  have knows := (sound.act first).knows_of_remembers
    (onward.notes.chronicled (chronicled.mono onward.now)) roomy asked remembers
  rw [run_append]
  refine silent_of_knows ((sound.act first).run later).matched.filed ?_ arrival
  rw [sameName, sameNonce, ← named]
  exact knows

/-- A request of one name that lasts for some milliseconds. -/
def requestFor (nonce : Nonce) (millis : Nat) : Interest :=
  { name := ⟨[[97]]⟩, nonce, lifetime := some (Duration.ofMillis millis) }

/-- Four faces that are not local, and a route of that name to the second. -/
def fourFaces : List Action :=
  [.addFace { isLocal := false }, .addFace { isLocal := false }, .addFace { isLocal := false },
    .addFace { isLocal := false },
    .changeRoutes (·.addNextHop ⟨[[97]]⟩ { face := ⟨257⟩, cost := 1 })]

theorem sent_nonce_is_remembered_after_the_end :
    (usual.run (fourFaces ++ .receiveInterest ⟨256⟩ (requestFor 1 1000) ::
      [.fireNext (Duration.ofMillis 1000)])).sends (.receiveInterest ⟨258⟩ (requestFor 1 1000)) = [] := by
  have sent : (⟨257⟩, .interest (requestFor 1 1000)) ∈
      (usual.run fourFaces).sends (.receiveInterest ⟨256⟩ (requestFor 1 1000)) := by decide
  obtain ⟨asked, isAsked⟩ : ∃ asked, asked =
    (usual.run fourFaces).act (.receiveInterest ⟨256⟩ (requestFor 1 1000)) := ⟨_, rfl⟩
  have roomy : asked.Roomy [.fireNext (Duration.ofMillis 1000)] := by
    intro earlier later same
    rw [run_eq_evaluate, isAsked]
    match earlier, later, same with
    | [], _, _ => decide
    | [_], _, rfl => decide
  rw [isAsked] at roomy
  obtain ⟨id, entry, named, found, silent⟩ := sent_nonce_is_remembered ofSettings_usual fourFaces
    _ _ ⟨257⟩ (requestFor 1 1000) sent roomy
  rw [← isAsked] at found silent
  obtain ⟨other, here⟩ := Option.isSome_iff_exists.mp
    (show (asked.pit.get? ⟨1, ⟨[[97]]⟩⟩).isSome = true by rw [isAsked]; decide)
  have sound : Sound asked := by
    rw [isAsked]
    exact ((sound_start ofSettings_usual).run fourFaces).act _
  have mine : id = ⟨1, ⟨[[97]]⟩⟩ := sound.matched.filed.id_eq_of_name found here named
  subst mine
  have undisturbed : Undisturbed ⟨1, ⟨[[97]]⟩⟩ ⟨257⟩ 1 asked [.fireNext (Duration.ofMillis 1000)] := by
    refine ⟨fun forgets => ?_, trivial⟩
    cases forgets with
    | replaced sent _ _ =>
      rw [sends_of_outbox (outbox_fireNext _)] at sent
      cases sent
  have fails : asked.Fails ⟨1, ⟨[[97]]⟩⟩ (.fireNext (Duration.ofMillis 1000)) := by
    refine ⟨⟨entry, found⟩, ?_, ?_⟩ <;> rw [act_eq_evaluate, isAsked]
    · exact Option.isNone_iff_eq_none.mp (by decide)
    · decide
  have recent : (asked.run [.fireNext (Duration.ofMillis 1000)]).now <
      (asked.run [.fireNext (Duration.ofMillis 1000)]).now + asked.deadNonces.lifetime := by
    rw [run_eq_evaluate, isAsked]
    decide
  exact silent (@Remembers.ended asked _ _ _ _ [] [] _ rfl undisturbed fails recent) _ _ rfl rfl

/-- A downstream asks anew, under another nonce and on the face that was asked
before. -/
def overtaken : List Action :=
  [.receiveInterest ⟨256⟩ (requestFor 1 1000), .receiveInterest ⟨258⟩ (requestFor 2 10000),
    .passTime (Duration.ofMillis 1500), .receiveInterest ⟨256⟩ (requestFor 3 500),
    .passTime (Duration.ofMillis 2100)]

/-- The face that was asked goes away, and then the downstream asks anew. -/
def cutOff : List Action :=
  [.receiveInterest ⟨256⟩ (requestFor 1 1000), .removeFace ⟨257⟩,
    .receiveInterest ⟨256⟩ (requestFor 2 1000),
    .changeRoutes (·.addNextHop ⟨[[97]]⟩ { face := ⟨259⟩, cost := 1 })]

/-- A nonce can be sent a second time while its entry is still there and no Data
has come: only the last nonce that a face was sent is kept, and it is kept only
as long as the face is there. -/
theorem sent_nonce_is_forgotten :
    (usual.run fourFaces).sends (.receiveInterest ⟨256⟩ (requestFor 1 1000)) =
        [(⟨257⟩, .interest (requestFor 1 1000))] ∧
      (((usual.run (fourFaces ++ overtaken)).pit.get? ⟨1, ⟨[[97]]⟩⟩).isSome = true ∧
        (usual.run (fourFaces ++ overtaken)).counters.inData = 0 ∧
        (usual.run (fourFaces ++ overtaken)).deadNonces.isEmpty = true ∧
        (usual.run (fourFaces ++ overtaken)).sends (.receiveInterest ⟨259⟩ (requestFor 1 1000)) =
          [(⟨257⟩, .interest (requestFor 1 1000))]) ∧
      ((usual.run (fourFaces ++ cutOff)).pit.get? ⟨1, ⟨[[97]]⟩⟩).isSome = true ∧
        (usual.run (fourFaces ++ cutOff)).counters.inData = 0 ∧
        (usual.run (fourFaces ++ cutOff)).deadNonces.isEmpty = true ∧
        (usual.run (fourFaces ++ cutOff)).sends (.receiveInterest ⟨258⟩ (requestFor 1 1000)) =
          [(⟨259⟩, .interest (requestFor 1 1000))] := by
  simp only [run_eq_evaluate]
  decide +kernel

end Forwarder

end NamedData
