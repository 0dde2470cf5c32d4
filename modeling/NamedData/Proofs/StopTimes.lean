import NamedData.Proofs.Setup

namespace NamedData

/-- A step that starts from the view of a state comes to the view of its result. -/
def Respects {ε σ : Type} (view : σ → σ) (step : σ → Except ε σ) : Prop :=
  ∀ state, step (view state) = (step state).map view

namespace Respects

variable {ε σ α : Type} {view : σ → σ}

theorem bind {first next : σ → Except ε σ} (begins : Respects view first)
    (goesOn : Respects view next) : Respects view fun state => first state >>= next := by
  intro state
  dsimp only
  rw [begins]
  cases first state with
  | error error => rfl
  | ok middle => exact goesOn middle

theorem foldlM {step : σ → α → Except ε σ} (steps : ∀ item, Respects view (step · item))
    (items : List α) : Respects view (items.foldlM step) := by
  induction items with
  | nil => exact fun _ => rfl
  | cons first rest ih => exact (steps first).bind ih

end Respects

namespace Simulation

variable {simulation : Simulation} {first : Move} {stop : Instant}

theorem settleMoves_stoppedAt : (simulation.stoppedAt stop).settleMoves = simulation.settleMoves := by
  induction simulation using settle.induct with
  | case1 simulation next exchanged =>
    have same : (simulation.stoppedAt stop).exchange = (0, next.stoppedAt stop) :=
      congrArg (fun result => (result.1, result.2.stoppedAt stop)) exchanged
    rw [(settle_of_still exchanged).2, (settle_of_still same).2]
    rfl
  | case2 simulation count next exchanged ih =>
    have same : (simulation.stoppedAt stop).exchange = (count + 1, next.stoppedAt stop) :=
      congrArg (fun result => (result.1, result.2.stoppedAt stop)) exchanged
    rw [(settle_of_answered exchanged).2, (settle_of_answered same).2, ih]
    rfl

theorem movesFrom_stoppedAt (first : Move) :
    (simulation.stoppedAt stop).movesFrom first = simulation.movesFrom first := by
  rw [movesFrom, perform_stoppedAt, settleMoves_stoppedAt]
  rfl

/-- While nothing is due, the clocks move on to the next deadline. -/
theorem advances_of_next? (undue : simulation.timers.popDue? simulation.now = none)
    (next : simulation.next? = some first) :
    ∃ time, simulation.nextDeadline? = some time ∧ first = .advance time := by
  unfold next? at next
  rw [undue] at next
  dsimp only at next
  split at next
  · cases next
  · rename_i time deadline
    split at next
    · exact ⟨time, deadline, (Option.some.inj next).symm⟩
    · cases next

/-- What comes next before an earlier end comes next before a later one. -/
theorem next?_of_stoppedAt (sooner : stop ≤ simulation.stop)
    (next : (simulation.stoppedAt stop).next? = some first) : simulation.next? = some first := by
  have due : (simulation.stoppedAt stop).timers.popDue? (simulation.stoppedAt stop).now =
      simulation.timers.popDue? simulation.now := rfl
  have deadline : (simulation.stoppedAt stop).nextDeadline? = simulation.nextDeadline? := rfl
  unfold next? at next ⊢
  rw [due, deadline] at next
  split at next
  · exact next
  · split at next
    · cases next
    · rename_i time _
      split at next
      · rename_i before
        have before' : time ≤ simulation.stop := Nat.le_trans before sooner
        rw [if_pos before']
        exact next
      · cases next

/-- A run that ends sooner is the beginning of one that ends later: they have their
moves in common up to a point where the one is over and the other goes on. -/
theorem exists_parting (sooner : stop ≤ simulation.stop) (settled : simulation.Settled)
    {budget more : Nat} {short long : Simulation}
    (ended : (simulation.stoppedAt stop).run? budget = some short)
    (endedLater : simulation.run? more = some long) :
    ∃ shared left, Along Allowed simulation shared ∧ (simulation.follow shared).Settled ∧
      ((simulation.follow shared).stoppedAt stop).next? = none ∧
      short = ((simulation.follow shared).stoppedAt stop).conclude ∧
      (simulation.follow shared).run? left = some long := by
  induction budget generalizing simulation more with
  | zero => cases ended
  | succ budget ih =>
    cases next : (simulation.stoppedAt stop).next? with
    | none =>
      rw [run?, step?_eq_follow, next] at ended
      cases ended
      exact ⟨[], more, trivial, settled, next, rfl, endedLater⟩
    | some first =>
      rw [run?, step?_eq_follow, next, Option.map_some, movesFrom_stoppedAt, follow_stoppedAt] at ended
      cases more with
      | zero => cases endedLater
      | succ more =>
        have next' := next?_of_stoppedAt sooner next
        rw [run?, step?_eq_follow, next'] at endedLater
        obtain ⟨shared, left, allowed, settled', isOver, isShort, goesOn⟩ :=
          ih (by rw [stop_follow]; exact sooner) (settled_movesFrom first) ended endedLater
        rw [← follow_append] at settled' isOver isShort goesOn
        exact ⟨_, left, along_append.mpr ⟨allowed_movesFrom (allowed_next? settled next'), allowed⟩,
          settled', isOver, isShort, goesOn⟩

section Construction

variable (scenario : Scenario)

theorem addFace_stoppedAt (place : Nat) (face : Face) :
    (simulation.stoppedAt stop).addFace place face =
      ((simulation.addFace place face).1, (simulation.addFace place face).2.stoppedAt stop) := by
  simp only [addFace, stoppedAt]
  split <;> rfl

theorem addLink_stoppedAt (link : LinkSetting) :
    Respects (stoppedAt · stop) (addLink scenario · link) := by
  intro simulation
  unfold addLink
  cases scenario.findNode link.a with
  | error error => rfl
  | ok a =>
    cases scenario.findNode link.b with
    | error error => rfl
    | ok b =>
      simp only [bind, Except.bind, addFace_stoppedAt]
      rfl

theorem addRoute_stoppedAt (route : RouteSetting) :
    Respects (stoppedAt · stop) (addRoute scenario · route) := by
  intro simulation
  unfold addRoute
  cases scenario.findNode route.node with
  | error error => rfl
  | ok node =>
    cases scenario.findNode route.nextHop with
    | error error => rfl
    | ok neighbour =>
      simp only [bind, Except.bind, stoppedAt]
      split
      · rfl
      · cases findPrefix route.under <;> rfl

theorem addProducer_stoppedAt (setting : ProducerSetting) :
    Respects (stoppedAt · stop) (addProducer scenario · setting) := by
  intro simulation
  unfold addProducer
  cases scenario.findNode setting.node with
  | error error => rfl
  | ok node =>
    cases findPrefix setting.under with
    | error error => rfl
    | ok under =>
      simp only [bind, Except.bind, addFace_stoppedAt]
      rfl

theorem addConsumer_stoppedAt (setting : ConsumerSetting) :
    Respects (stoppedAt · stop) (addConsumer scenario · setting) := by
  intro simulation
  unfold addConsumer
  cases scenario.findNode setting.node with
  | error error => rfl
  | ok node =>
    cases findPrefix setting.under with
    | error error => rfl
    | ok under =>
      cases setting.interval? with
      | none => rfl
      | some interval =>
        simp only [bind, Except.bind, addFace_stoppedAt]
        rfl

/-- How long a scenario lasts makes no difference to how it is set up. -/
theorem ofScenario_lasting (duration : Nat) (nonces : NonceSource) :
    ofScenario { scenario with duration } nonces =
      (ofScenario scenario nonces).map (·.stoppedAt (Duration.ofMillis duration)) := by
  have asking := Respects.foldlM (@addConsumer_stoppedAt (Duration.ofMillis duration) scenario)
    scenario.consumers
  have producing := (Respects.foldlM (addProducer_stoppedAt scenario) scenario.producers).bind asking
  have routing := (Respects.foldlM (addRoute_stoppedAt scenario) scenario.routes).bind producing
  have linking := (Respects.foldlM (addLink_stoppedAt scenario) scenario.links).bind routing
  unfold ofScenario
  show (scenario.nodes.mapM (Node.ofSetting scenario.forwarder nonces) >>= _) = _
  cases scenario.nodes.mapM (Node.ofSetting scenario.forwarder nonces) with
  | error error => rfl
  | ok nodes => exact linking ⟨Duration.ofMillis scenario.duration, nodes, [], [], .empty, nonces⟩

end Construction

end Simulation

end NamedData
