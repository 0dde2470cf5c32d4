import Mathlib.Logic.Relation
import NamedData.Proofs.Handouts

namespace NamedData

/-- The same entry with other timers in its slots. -/
def PitEntry.retimed (entry : PitEntry) (unsatisfy straggler : Option TimerId) : PitEntry :=
  { entry with unsatisfyTimer := unsatisfy, stragglerTimer := straggler }

namespace Forwarder

def cache (forwarder : Forwarder) (data : Data) (unsolicited : Bool) : Forwarder :=
  { forwarder with
    contentStore := forwarder.contentStore.insert data unsolicited forwarder.now }

/-- Why an Interest goes out of a face: its strategy finds the face usable while an
Interest is handled, or the host wants it so. -/
inductive Leave (forwarder : Forwarder) (id : PitId) (face : FaceId) (hint : Option String)
    (newNonce : Bool) : Action → Prop
  | chosen {source : FaceId} {interest : Interest}
      (usable : forwarder.canForward id face = true) :
      Leave forwarder id face hint newNonce (.receiveInterest source interest)
  | wanted : Leave forwarder id face hint newNonce (.sendInterest id face hint newNonce)

/-- The actions that may end entries. -/
inductive Ends : Action → Prop
  | fires (limit : Instant) : Ends (.fireNext limit)
  | removes (face : FaceId) : Ends (.removeFace face)

/-- The elementary changes that an action is made of, each with what allows it.
None of them moves the clock or changes a face. -/
inductive Step (action : Action) (forwarder : Forwarder) : Forwarder → Prop
  | counts (change : Counters → Counters) : Step action forwarder (forwarder.count change)
  /-- The entry of an arriving Interest is found or made. -/
  | opens {source : FaceId} {interest : Interest}
      (cause : action = .receiveInterest source interest) :
      Step action forwarder { forwarder with pit := (forwarder.pit.insert interest.name).2 }
  /-- Timers of an entry are set or stopped. -/
  | retimes {id : PitId} {timers : Timers TimerEvent} {change : PitEntry → PitEntry}
      (still : timers.now = forwarder.now)
      (slots : ∀ entry, ∃ unsatisfy straggler, change entry = entry.retimed unsatisfy straggler) :
      Step action forwarder { forwarder with timers, pit := forwarder.pit.modify id change }
  /-- A downstream waits. -/
  | joins {id : PitId} {source : FaceId} {interest : Interest}
      (cause : action = .receiveInterest source interest)
      (accepts : forwarder.Accepts source interest.name) (mine : id.name = interest.name) :
      Step action forwarder
        (forwarder.addInRecord id source (forwarder.admitted source interest))
  /-- A face is asked. -/
  | asks {id : PitId} {entry : PitEntry} {face : FaceId} {record : InRecord}
      {hint : Option String} {newNonce : Bool} (found : forwarder.pit.get? id = some entry)
      (reachable : forwarder.isReachable face = true)
      (inScope : forwarder.violatesScope entry face = false)
      (spoken : speaker? face entry.inRecords = some record)
      (unspent : record.interest.hopLimit = some 0 → forwarder.faces.isLocal face = true)
      (leave : forwarder.Leave id face hint newNonce action) :
      Step action forwarder (forwarder.emitInterest id face record.interest hint newNonce)
  /-- Data goes to a face. -/
  | answers {data : Data} {face : FaceId} (allowed : forwarder.maySend data face = true) :
      Step action forwarder (forwarder.sendData data face)
  /-- Data that somebody waits for is kept. -/
  | caches {source : FaceId} {data : Data} (cause : action = .receiveData source data)
      (accepts : forwarder.Accepts source data.name) :
      Step action forwarder (forwarder.cache { data with incomingFace := some source } false)
  /-- Data that nobody waits for is kept when it comes from the host. -/
  | hoards {source : FaceId} {data kept : Data}
      (cause : action = .receiveData source data ∧ kept = { data with incomingFace := some source } ∨
        action = .receiveUnsolicited source data ∧ kept = data)
      (onHost : forwarder.faces.isLocal source = true) :
      Step action forwarder (forwarder.cache kept true)
  | notes (id : PitId) (satisfied : Bool) (freshness : Option Duration) (outFace : Option FaceId) :
      Step action forwarder (forwarder.noteDeadNonces id satisfied freshness outFace)
  /-- The cache has answered an entry. -/
  | clears {source : FaceId} {interest : Interest} (id : PitId)
      (cause : action = .receiveInterest source interest) :
      Step action forwarder (forwarder.updateEntry id (·.clearInRecords))
  /-- Data has answered an entry. -/
  | settles {id : PitId} {source : FaceId} {data : Data} (cause : action = .receiveData source data)
      (accepts : forwarder.Accepts source data.name)
      (under : id.name.isPrefixOf data.name = true) :
      Step action forwarder (forwarder.updateEntry id fun entry =>
        entry.clearInRecords.deleteOutRecord source)
  /-- A face that has gone away leaves an entry. -/
  | forgets {face : FaceId} (id : PitId) (cause : action = .removeFace face) :
      Step action forwarder (forwarder.updateEntry id fun entry =>
        (entry.deleteInRecord face).deleteOutRecord face)
  | erases (id : PitId) (cause : Ends action) :
      Step action forwarder { forwarder with pit := forwarder.pit.erase id }
  /-- A way that was tried in vain gets dearer. -/
  | raises {limit : Instant} (name : Name) (face : FaceId) (penalty : Cost)
      (cause : action = .fireNext limit) :
      Step action forwarder (forwarder.bumpCost name face penalty)

abbrev Steps (action : Action) : Forwarder → Forwarder → Prop :=
  Relation.ReflTransGen (Step action)

variable {action : Action} {before forwarder : Forwarder} {id : PitId}

theorem Step.fixed {after : Forwarder} (step : Step action before after) :
    after.faces = before.faces ∧ after.now = before.now := by
  cases step with
  | retimes still => exact ⟨rfl, still⟩
  | asks => rw [emitInterest_eq]; exact ⟨rfl, rfl⟩
  | answers => rw [sendData_eq]; exact ⟨rfl, rfl⟩
  | notes => rw [noteDeadNonces_eq]; exact ⟨rfl, rfl⟩
  | _ => exact ⟨rfl, rfl⟩

theorem Steps.fixed {after : Forwarder} (steps : Steps action before after) :
    after.faces = before.faces ∧ after.now = before.now := by
  induction steps with
  | refl => exact ⟨rfl, rfl⟩
  | tail _ step ih => exact ⟨step.fixed.1.trans ih.1, step.fixed.2.trans ih.2⟩

theorem Steps.count (steps : Steps action before forwarder) (change : Counters → Counters) :
    Steps action before (forwarder.count change) := steps.tail (.counts change)

theorem Steps.cancelTimers (steps : Steps action before forwarder) (id : PitId) :
    Steps action before (forwarder.cancelTimers id) := by
  cases found : forwarder.pit.get? id with
  | none => rw [cancelTimers_of_none found]; exact steps
  | some entry =>
    rw [cancelTimers_eq found]
    exact steps.tail (.retimes (now_cancelTimers id) fun _ => ⟨none, none, rfl⟩)

theorem rearm_eq (entry : PitEntry) (deadline : Instant) (event : TimerEvent) :
    forwarder.rearm entry deadline event = { forwarder with
      timers := (forwarder.rearm entry deadline event).timers
      pit := forwarder.pit.modify event.entry
        fun entry => entry.setTimer event.slot (some (forwarder.nextTimer deadline)) } := by
  rw [← rearm_timer entry deadline event]
  cases holds : entry.timer event.slot <;> simp only [rearm, holds, stopTimer] <;> rfl

theorem Steps.rearm (steps : Steps action before forwarder) (entry : PitEntry)
    (deadline : Instant) (event : TimerEvent) :
    Steps action before (forwarder.rearm entry deadline event) := by
  have still : (forwarder.rearm entry deadline event).timers.now = forwarder.now := by
    rw [Forwarder.rearm, stopTimer_eq]
    cases entry.timer event.slot <;> rfl
  rw [rearm_eq]
  refine steps.tail (.retimes still fun entry => ?_)
  cases event with
  | unsatisfy id => exact ⟨_, entry.stragglerTimer, rfl⟩
  | straggler id satisfied freshness => exact ⟨entry.unsatisfyTimer, _, rfl⟩

theorem Steps.setUnsatisfyTimer (steps : Steps action before forwarder) (id : PitId) :
    Steps action before (forwarder.setUnsatisfyTimer id) := by
  cases found : forwarder.pit.get? id with
  | none => simpa only [Forwarder.setUnsatisfyTimer, found] using steps
  | some entry =>
    cases last : entry.lastInRecordExpiry? with
    | none => simpa only [Forwarder.setUnsatisfyTimer, found, last] using steps
    | some expiry =>
      rw [setUnsatisfyTimer_eq found last]
      exact steps.rearm entry expiry (.unsatisfy id)

theorem Steps.setStragglerTimer (steps : Steps action before forwarder) (id : PitId)
    (satisfied : Bool) (freshness : Option Duration) :
    Steps action before (forwarder.setStragglerTimer id satisfied freshness) := by
  cases found : forwarder.pit.get? id with
  | none => simpa only [Forwarder.setStragglerTimer, found] using steps
  | some entry =>
    rw [setStragglerTimer_eq satisfied freshness found]
    exact steps.rearm entry _ (.straggler id satisfied freshness)

theorem Steps.sendInterest (steps : Steps action before forwarder) {face : FaceId}
    {hint : Option String} {newNonce : Bool} (leave : forwarder.Leave id face hint newNonce action) :
    Steps action before (forwarder.sendInterest id face hint newNonce) := by
  rcases forwarder.sendInterest_cases id face hint newNonce with
    ⟨change, same⟩ | ⟨entry, record, found, reachable, inScope, spoken, unspent, same⟩
  · rw [same]
    exact steps.count change
  · rw [same]
    exact steps.tail (.asks found reachable inScope spoken unspent leave)

theorem Steps.reject (steps : Steps action before forwarder) (id : PitId) :
    Steps action before (forwarder.reject id) := by
  rcases forwarder.reject_cases id with ⟨change, same⟩ | ⟨_, change, _, _, same⟩
  · rw [same]
    exact steps.count change
  · rw [same]
    exact ((steps.count change).cancelTimers id).setStragglerTimer id false none

theorem sendData_of_refused {data : Data} {face : FaceId}
    (refused : forwarder.maySend data face = false) :
    ∃ change, forwarder.sendData data face = forwarder.count change := by
  unfold maySend at refused
  unfold sendData
  split
  · exact ⟨_, rfl⟩
  · split
    · exact ⟨_, rfl⟩
    · rename_i reachable inScope
      cases isLocal : forwarder.faces.isLocal face <;>
        cases barred : Name.localhost.isPrefixOf data.name <;> simp_all

theorem Steps.sendData (steps : Steps action before forwarder) (data : Data) (face : FaceId) :
    Steps action before (forwarder.sendData data face) := by
  cases allowed : forwarder.maySend data face with
  | true => exact steps.tail (.answers allowed)
  | false =>
    obtain ⟨change, same⟩ := sendData_of_refused allowed
    rw [same]
    exact steps.count change

section Interests

variable {source : FaceId} {interest : Interest}

theorem Steps.afterReceiveInterest (steps : Steps (.receiveInterest source interest) before forwarder)
    (strategy : Strategy) (route : FibEntry) (id : PitId) :
    Steps (.receiveInterest source interest) before
      (strategy.afterReceiveInterest forwarder route id) :=
  afterReceiveInterest_keeps _ (fun _ _ steps usable => steps.sendInterest (.chosen usable))
    (fun _ steps _ => steps.reject id) strategy route steps

theorem admitted_of_faces {other : Forwarder} (same : other.faces = forwarder.faces) :
    other.admitted source interest = forwarder.admitted source interest := by
  rw [admitted, admitted, same]

theorem accepts_of_faces {other : Forwarder} {name : Name} (same : other.faces = forwarder.faces) :
    other.Accepts source name ↔ forwarder.Accepts source name := by
  rw [Accepts, Accepts, Barred, Barred, same]

theorem Steps.addInRecord (steps : Steps (.receiveInterest source interest) before forwarder)
    (accepts : before.Accepts source interest.name) (mine : id.name = interest.name) :
    Steps (.receiveInterest source interest) before
      (forwarder.addInRecord id source (before.admitted source interest)) := by
  have same := steps.fixed.1
  rw [← admitted_of_faces same]
  exact steps.tail (.joins rfl ((accepts_of_faces same).mpr accepts) mine)

theorem Steps.askOnward (steps : Steps (.receiveInterest source interest) before forwarder)
    (accepts : before.Accepts source interest.name) (mine : id.name = interest.name) :
    Steps (.receiveInterest source interest) before
      (forwarder.askOnward id source (before.admitted source interest)) :=
  ((steps.addInRecord accepts mine).setUnsatisfyTimer id).afterReceiveInterest _ _ id

theorem Steps.answerFromCache (steps : Steps (.receiveInterest source interest) before forwarder)
    (accepts : before.Accepts source interest.name) (mine : id.name = interest.name) (data : Data) :
    Steps (.receiveInterest source interest) before
      (forwarder.answerFromCache id source (before.admitted source interest) data) := by
  have cleared := (steps.addInRecord accepts mine).tail (.clears id rfl)
  exact (Steps.setStragglerTimer cleared id true data.freshness).sendData _ source

/-- An Interest that is let in has passed every check on its way. -/
theorem accepts_of_judge {kept : Interest} (judged : forwarder.judge source interest = .duplicate kept ∨
    forwarder.judge source interest = .request kept) : forwarder.Accepts source interest.name := by
  refine ⟨(judge_letIn judged).2, fun barred => ?_⟩
  obtain ⟨outside, under⟩ := barred
  unfold judge at judged
  simp only [outside, under] at judged
  grind

theorem steps_receiveInterest (filed : forwarder.pit.Filed) (source : FaceId) (interest : Interest) :
    Steps (.receiveInterest source interest) forwarder
      (forwarder.receiveInterest source interest) := by
  have mine := filed.insert_name interest.name
  have received : Steps (.receiveInterest source interest) forwarder forwarder.received :=
    Steps.count .refl _
  have opened := received.tail (.opens rfl)
  rcases forwarder.receiveInterest_cases source interest with
    ⟨change, same⟩ | ⟨kept, judged | judged⟩
  · rw [same]
    exact Steps.count .refl change
  · rw [receiveInterest_duplicate judged, (judge_letIn (Or.inl judged)).1]
    exact (Steps.addInRecord (Steps.count opened _) (accepts_of_judge (Or.inl judged))
      mine).setUnsatisfyTimer _
  · have accepts := accepts_of_judge (Or.inr judged)
    have reopened := Steps.cancelTimers opened (forwarder.pit.insert interest.name).1
    rw [receiveInterest_request judged, (judge_letIn (Or.inr judged)).1]
    unfold handleRequest
    dsimp only
    split
    · exact reopened.askOnward accepts mine
    · split
      · exact (reopened.count _).answerFromCache accepts mine _
      · exact (reopened.count _).askOnward accepts mine

end Interests

section Replies

variable {source : FaceId} {data : Data}

theorem Steps.satisfy (steps : Steps (.receiveData source data) before forwarder)
    (accepts : before.Accepts source data.name) (under : id.name.isPrefixOf data.name = true)
    (reply : Data) : Steps (.receiveData source data) before (forwarder.satisfy source reply id) := by
  have stopped := steps.cancelTimers id
  unfold Forwarder.satisfy
  dsimp only
  split
  · exact stopped
  · have noted := stopped.tail (.notes id true reply.freshness (some source))
    have settled := noted.tail (.settles rfl ((accepts_of_faces (Steps.fixed noted).1).mpr accepts) under)
    exact Steps.setStragglerTimer settled id true reply.freshness

theorem Steps.satisfyAll (steps : Steps (.receiveData source data) before forwarder)
    (accepts : before.Accepts source data.name) {ids : List PitId}
    (under : ∀ id ∈ ids, id.name.isPrefixOf data.name = true) (reply : Data) :
    Steps (.receiveData source data) before (ids.foldl (Forwarder.satisfy source reply) forwarder) := by
  induction ids generalizing forwarder with
  | nil => exact steps
  | cons first rest ih =>
    exact ih (steps.satisfy accepts (under first List.mem_cons_self) reply)
      fun id member => under id (List.mem_cons_of_mem first member)

theorem Steps.sendAll (steps : Steps action before forwarder) (data : Data) (faces : List FaceId) :
    Steps action before
      (faces.foldl (fun forwarder face => forwarder.sendData data face) forwarder) := by
  induction faces generalizing forwarder with
  | nil => exact steps
  | cons face rest ih => exact ih (steps.sendData data face)

theorem steps_receiveData (filed : forwarder.pit.Filed) (source : FaceId) (data : Data) :
    Steps (.receiveData source data) forwarder (forwarder.receiveData source data) := by
  unfold Forwarder.receiveData
  dsimp only
  split
  · exact Steps.count .refl _
  · rename_i present
    split
    · exact Steps.count (Steps.count .refl _) _
    · rename_i inScope
      have accepts : forwarder.Accepts source data.name := by
        refine ⟨by simpa [Forwarder.count] using present, fun barred => inScope ?_⟩
        simp [Forwarder.count, barred.1, barred.2]
      split
      · unfold receiveUnsolicited
        dsimp only
        split
        · rename_i onHost
          exact (Steps.count (Steps.count .refl _) _).tail (.hoards (Or.inl ⟨rfl, rfl⟩) onHost)
        · exact Steps.count (Steps.count .refl _) _
      · have received : Steps (.receiveData source data) forwarder (forwarder.count
            fun counters => { counters with inData := counters.inData + 1 }) := Steps.count .refl _
        have cached := received.tail (.caches rfl accepts)
        refine Steps.sendAll (Steps.satisfyAll cached accepts ?_ _) _ _
        exact fun id member => (filed.mem_dataMatches.mp member).1

end Replies

theorem Steps.finalize (steps : Steps action before forwarder) (id : PitId) (satisfied : Bool)
    (freshness : Option Duration) (cause : Ends action) :
    Steps action before (forwarder.finalize id satisfied freshness) := by
  unfold Forwarder.finalize
  split
  · exact steps
  · exact ((Steps.count (steps.tail (.notes id satisfied freshness none)) _).cancelTimers id).tail
      (.erases id cause)

theorem Steps.bumpAll {limit : Instant} (steps : Steps (.fireNext limit) before forwarder)
    (name : Name) (penalty : Cost) (records : List OutRecord) :
    Steps (.fireNext limit) before (records.foldl (fun forwarder record =>
      forwarder.bumpCost name record.face penalty) forwarder) := by
  induction records generalizing forwarder with
  | nil => exact steps
  | cons record rest ih => exact ih (steps.tail (.raises name record.face penalty rfl))

theorem steps_fire (limit : Instant) (event : TimerEvent) :
    Steps (.fireNext limit) forwarder (forwarder.fire event) := by
  cases event with
  | straggler id satisfied freshness => exact Steps.finalize .refl id satisfied freshness (.fires limit)
  | unsatisfy id =>
    show Steps _ _ (forwarder.expire id)
    unfold expire
    split
    · exact .refl
    · rename_i entry _
      have fired : Steps (.fireNext limit) forwarder
          (forwarder.updateEntry id fun entry => { entry with unsatisfyTimer := none }) :=
        .single (.retimes rfl fun entry => ⟨none, entry.stragglerTimer, rfl⟩)
      refine Steps.finalize ?_ id false none (.fires limit)
      unfold Strategy.beforeExpireInterest
      split
      · exact fired
      · split
        · exact fired
        · exact fired.bumpAll _ _ _

theorem Steps.forgetFace {face : FaceId} (steps : Steps (.removeFace face) before forwarder)
    (id : PitId) : Steps (.removeFace face) before (Forwarder.forgetFace face forwarder id) := by
  unfold Forwarder.forgetFace
  split
  · exact steps
  · dsimp only
    split
    · exact Steps.finalize (steps.tail (.forgets id rfl)) id false none (.removes face)
    · exact steps.tail (.forgets id rfl)

theorem Steps.forgetAll {face : FaceId} (steps : Steps (.removeFace face) before forwarder)
    (ids : List PitId) :
    Steps (.removeFace face) before (ids.foldl (Forwarder.forgetFace face) forwarder) := by
  induction ids generalizing forwarder with
  | nil => exact steps
  | cons id rest ih => exact ih (steps.forgetFace id)

/-- What an action does at once, before its steps: faces, the choice of strategies,
the host's routes and the clock change here and nowhere else, and packets are
collected. -/
def begun (forwarder : Forwarder) (action : Action) : Forwarder :=
  match action with
  | .removeFace face =>
    if forwarder.faces.contains face then
      { forwarder with faces := forwarder.faces.remove face, fib := forwarder.fib.removeFace face }
    else forwarder
  | .fireNext limit =>
    match forwarder.timers.popDue? limit with
    | none => forwarder
    | some (_, timers) => { forwarder with timers }
  | .receiveInterest _ _ | .receiveData _ _ | .receiveUnsolicited _ _ | .sendInterest _ _ _ _
  | .reject _ | .sendData _ _ => forwarder
  | action => forwarder.act action

/-- Every action is a beginning and a sequence of steps. -/
theorem act_steps (filed : forwarder.pit.Filed) (action : Action) :
    Steps action (forwarder.begun action) (forwarder.act action) := by
  cases action with
  | removeFace face =>
    simp only [begun, Forwarder.act, Forwarder.removeFace]
    split
    · exact Steps.forgetAll .refl _
    · exact .refl
  | receiveInterest source interest => exact steps_receiveInterest filed source interest
  | receiveData source data => exact steps_receiveData filed source data
  | receiveUnsolicited source data =>
    show Steps _ forwarder (forwarder.receiveUnsolicited source data)
    unfold receiveUnsolicited
    dsimp only
    split
    · rename_i onHost
      exact (Steps.count .refl _).tail (.hoards (Or.inr ⟨rfl, rfl⟩) onHost)
    · exact Steps.count .refl _
  | sendInterest id face hint newNonce => exact Steps.sendInterest .refl .wanted
  | reject id => exact Steps.reject .refl id
  | sendData data face => exact Steps.sendData .refl data face
  | fireNext limit =>
    cases popped : forwarder.timers.popDue? limit with
    | none =>
      simp only [begun, Forwarder.act, popped]
      exact .refl
    | some due =>
      simp only [begun, Forwarder.act, popped]
      exact steps_fire limit due.1.payload
  | _ => exact .refl

end Forwarder

end NamedData
