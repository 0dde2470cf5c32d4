import NamedData.Proofs.FanOut

namespace NamedData

/-- Nothing that concerns an entry has changed. -/
structure Quiet (id : PitId) (before after : Forwarder) : Prop where
  entry : after.pit.get? id = before.pit.get? id
  timers : ∀ (timer : TimerId) (event : TimerEvent), event.entry = id →
    (after.timers.running[timer]? = some event ↔ before.timers.running[timer]? = some event)

theorem Quiet.of_same {before after : Forwarder} (id : PitId) (pit : after.pit = before.pit)
    (timers : after.timers.running = before.timers.running) : Quiet id before after where
  entry := by rw [pit]
  timers _ _ _ := by rw [timers]

theorem Local.quiet {other id : PitId} {before after : Forwarder} (change : Local other before after)
    (different : id ≠ other) : Quiet id before after where
  entry := change.entries id different
  timers timer event mine := change.timers timer event (by rw [mine]; exact different)

namespace Forwarder

/-- Data of this name is taken in on a face. -/
def Accepts (forwarder : Forwarder) (face : FaceId) (name : Name) : Prop :=
  forwarder.faces.contains face = true ∧ ¬ forwarder.Barred face name

/-- The actions that may change an entry. -/
inductive Touches (forwarder : Forwarder) (id : PitId) : Action → Prop
  /-- An Interest with a known nonce adds a downstream. -/
  | joins {face : FaceId} {interest : Interest}
      (judged : forwarder.judge face interest =
        .duplicate (forwarder.admitted face interest))
      (mine : (forwarder.pit.insert interest.name).1 = id) :
      Touches forwarder id (.receiveInterest face interest)
  /-- An Interest asks anew. -/
  | asks {face : FaceId} {interest : Interest}
      (judged : forwarder.judge face interest = .request (forwarder.admitted face interest))
      (mine : (forwarder.pit.insert interest.name).1 = id) :
      Touches forwarder id (.receiveInterest face interest)
  /-- Data answers it. -/
  | answers {source : FaceId} {data : Data} (accepts : forwarder.Accepts source data.name)
      (under : id.name.isPrefixOf data.name = true) :
      Touches forwarder id (.receiveData source data)
  /-- A face goes away. -/
  | leaves {face : FaceId} {after : Forwarder} (removed : forwarder.removeFace face = .ok after) :
      Touches forwarder id (.removeFace face)
  | sends (face : FaceId) (hint : Option String) (newNonce : Bool) :
      Touches forwarder id (.sendInterest id face hint newNonce)
  | rejects : Touches forwarder id (.reject id)
  /-- One of its timers goes off. -/
  | ends {limit : Instant} {timer : Timer TimerEvent} {rest : Timers TimerEvent}
      (popped : forwarder.timers.popDue? limit = some (timer, rest))
      (mine : timer.payload.entry = id) : Touches forwarder id (.fireNext limit)

variable {forwarder : Forwarder}

theorem quiet_or_touches_interest (sound : Sound forwarder) (id : PitId) (face : FaceId)
    (interest : Interest) : Quiet id forwarder (forwarder.receiveInterest face interest) ∨
      forwarder.Touches id (.receiveInterest face interest) := by
  rcases forwarder.receiveInterest_cases face interest with
    ⟨change, same⟩ | ⟨kept, judged⟩
  · rw [same]
    exact Or.inl (.of_same id rfl rfl)
  · by_cases mine : (forwarder.pit.insert interest.name).1 = id
    · rw [(judge_letIn judged).1] at judged
      rcases judged with judged | judged
      · exact Or.inr (.joins judged mine)
      · exact Or.inr (.asks judged mine)
    · obtain ⟨records, upkept⟩ :=
        upkept_receiveInterest sound.matched (sound.entryFor interest.name) judged
      exact Or.inl (upkept.change.quiet (Ne.symm mine))

/-- Data that is not taken in may at most be cached. -/
theorem receiveData_of_refused {source : FaceId} {data : Data}
    (refused : ¬ forwarder.Accepts source data.name) : ∃ contentStore counters,
      forwarder.receiveData source data = { forwarder with contentStore, counters } := by
  rcases forwarder.receiveData_cases source data with
    ⟨contentStore, counters, same, _⟩ | ⟨_, _, _, present, inScope, _⟩
  · exact ⟨contentStore, counters, same⟩
  · refine absurd ⟨present, fun barred => ?_⟩ refused
    rcases inScope with isLocal | free
    · rw [barred.1] at isLocal
      cases isLocal
    · rw [barred.2] at free
      cases free

theorem quiet_or_touches_data (sound : Sound forwarder) (id : PitId) (source : FaceId)
    (data : Data) : Quiet id forwarder (forwarder.receiveData source data) ∨
      forwarder.Touches id (.receiveData source data) := by
  by_cases accepts : forwarder.Accepts source data.name
  · by_cases under : id.name.isPrefixOf data.name = true
    · exact Or.inr (.answers accepts under)
    · have fanned := sound.fannedOut source data accepts.1 accepts.2
      have apart : id.name.isPrefixOf data.name = false := by simpa using under
      exact Or.inl ⟨fanned.others id apart, fun timer event mine =>
        fanned.otherTimers timer event (by rw [mine]; exact apart)⟩
  · obtain ⟨contentStore, counters, same⟩ := receiveData_of_refused accepts
    rw [same]
    exact Or.inl (.of_same id rfl rfl)

theorem quiet_fire (sound : Sound forwarder) {id : PitId} {limit : Instant}
    {timer : Timer TimerEvent} {rest : Timers TimerEvent}
    (popped : forwarder.timers.popDue? limit = some (timer, rest))
    (different : timer.payload.entry ≠ id) :
    Quiet id forwarder ({ forwarder with timers := rest }.fire timer.payload) := by
  have quiet := (ended_fire sound.matched popped).change.quiet different.symm
  refine ⟨quiet.entry, fun other event owner => (quiet.timers other event owner).trans ?_⟩
  show rest.running[other]? = some event ↔ _
  rw [Timers.running_popped popped]
  split
  · rename_i same
    rw [same, (Timers.popDue?_eq_some popped).1]
    constructor
    · intro impossible
      cases impossible
    · intro mine
      cases mine
      exact absurd owner different
  · exact Iff.rfl

/-- Every other action leaves the entry alone. -/
theorem Sound.quiet_or_touches (sound : Sound forwarder) (id : PitId) (action : Action) :
    Quiet id forwarder (forwarder.act action) ∨ forwarder.Touches id action := by
  cases action with
  | addFace face => exact Or.inl (.of_same id rfl rfl)
  | addReservedFace other face =>
    refine Or.inl ?_
    simp only [Forwarder.act, Forwarder.addReservedFace]
    split <;> exact .of_same id rfl rfl
  | removeFace face =>
    simp only [Forwarder.act]
    cases removed : forwarder.removeFace face with
    | ok after => exact Or.inr (.leaves removed)
    | error error => exact Or.inl (.of_same id rfl rfl)
  | changeRoutes change => exact Or.inl (.of_same id rfl rfl)
  | changeStrategies change => exact Or.inl (.of_same id rfl rfl)
  | receiveInterest face interest => exact quiet_or_touches_interest sound id face interest
  | receiveData source data => exact quiet_or_touches_data sound id source data
  | receiveUnsolicited source data =>
    refine Or.inl ?_
    show Quiet id forwarder (forwarder.receiveUnsolicited source data)
    unfold receiveUnsolicited
    dsimp only
    split <;> exact .of_same id rfl rfl
  | sendInterest other face hint newNonce =>
    by_cases mine : id = other
    · rw [mine]
      exact Or.inr (.sends face hint newNonce)
    · exact Or.inl ((forwarder.local_sendInterest other face hint newNonce).quiet mine)
  | reject other =>
    by_cases mine : id = other
    · rw [mine]
      exact Or.inr .rejects
    · refine Or.inl ?_
      cases found : forwarder.pit.get? other with
      | some entry => exact (sound.upkept found).reject.change.quiet mine
      | none =>
        simp only [Forwarder.act, Forwarder.reject, found]
        exact .of_same id rfl rfl
  | sendData data face =>
    refine Or.inl ?_
    show Quiet id forwarder (forwarder.sendData data face)
    rw [sendData_eq]
    exact .of_same id rfl rfl
  | collect face wanted => exact Or.inl (.of_same id rfl rfl)
  | fireNext limit =>
    cases popped : forwarder.timers.popDue? limit with
    | none =>
      simp only [Forwarder.act, popped]
      exact Or.inl (.of_same id rfl rfl)
    | some due =>
      obtain ⟨timer, rest⟩ := due
      by_cases mine : timer.payload.entry = id
      · exact Or.inr (.ends popped mine)
      · refine Or.inl ?_
        rw [act_fireNext_of_popDue? popped]
        exact quiet_fire sound popped mine
  | passTime time =>
    refine Or.inl ?_
    simp only [Forwarder.act]
    split
    · exact .of_same id rfl rfl
    · exact .of_same id rfl rfl

end Forwarder

end NamedData
