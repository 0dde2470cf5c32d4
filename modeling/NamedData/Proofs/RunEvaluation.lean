import NamedData.Proofs.Calls

namespace NamedData

theorem Timers.nextDeadline?_eq_head? {α : Type} (timers : Timers α) :
    timers.nextDeadline? = timers.running.keys.head?.map (·.deadline) := by
  rw [nextDeadline?, Std.ExtTreeMap.minKey?_eq_head?_keys]

namespace Simulation

variable {simulation final : Simulation} {rounds budget : Nat}

/-- Settling, as long as it takes no more rounds than allowed. Like all that follows it
evaluates inside a proof. -/
def settleWithin? : Nat → Simulation → Option Simulation
  | 0, _ => none
  | rounds + 1, simulation =>
    match simulation.exchange with
    | (0, next) => some next
    | (_ + 1, next) => settleWithin? rounds next

theorem settle_of_within (settled : settleWithin? rounds simulation = some final) :
    simulation.settle = final := by
  induction rounds generalizing simulation with
  | zero => cases settled
  | succ rounds ih =>
    rw [settleWithin?] at settled
    split at settled
    · rename_i next exchanged
      cases settled
      exact (settle_of_still exchanged).1
    · rename_i count next exchanged
      rw [(settle_of_answered exchanged).1]
      exact ih settled

/-- The clocks of all forwarders move on, timer by timer. -/
def evaluateAdvance (simulation : Simulation) (time : Instant) : Simulation :=
  { simulation with
    nodes := simulation.nodes.map fun node => { node with
      forwarder := List.foldl Forwarder.evaluate node.forwarder
        (List.replicate node.forwarder.timers.running.size (.fireNext time) ++ [.passTime time]) }
    timers := simulation.timers.advanceTo time }

theorem nodes_evaluateAdvance (simulation : Simulation) (time : Instant) :
    simulation.nodes.map (·.advanceTo time) = (simulation.evaluateAdvance time).nodes :=
  List.map_congr_left fun node _ => by
    rw [Node.advanceTo, Forwarder.advanceTo_eq_run_size, Forwarder.run_eq_evaluate]

theorem advanceTo_of_within {time : Instant}
    (settled : settleWithin? rounds (simulation.evaluateAdvance time) = some final) :
    simulation.advanceTo time = final := by
  rw [advanceTo, nodes_evaluateAdvance]
  exact settle_of_within settled

/-- The next deadline by the ascending lists of handles. -/
def firstDeadline? (simulation : Simulation) : Option Instant :=
  simulation.nodes.foldl
    (fun next node => earlier next (node.forwarder.timers.running.keys.head?.map (·.deadline)))
    (simulation.timers.running.keys.head?.map (·.deadline))

theorem nextDeadline?_eq_firstDeadline? (simulation : Simulation) :
    simulation.nextDeadline? = simulation.firstDeadline? := by
  simp only [nextDeadline?, firstDeadline?, Forwarder.nextDeadline?, Timers.nextDeadline?_eq_head?]

/-- The end of a run, as long as it takes no more rounds than allowed. -/
def concludeWithin? (rounds : Nat) (simulation : Simulation) : Option Simulation :=
  (settleWithin? rounds (simulation.evaluateAdvance simulation.stop)).map fun advanced =>
    { advanced with
      consumers := advanced.consumers.map fun consumer => consumer.expire simulation.stop }

theorem conclude_of_within (ended : simulation.concludeWithin? rounds = some final) :
    simulation.conclude = final := by
  obtain ⟨advanced, settled, rfl⟩ := Option.map_eq_some_iff.mp ended
  rw [conclude, advanceTo_of_within settled]

/-- A run, as long as no step of it takes more rounds than allowed. -/
def runWithin? (rounds : Nat) : Nat → Simulation → Option Simulation
  | 0, _ => none
  | budget + 1, simulation =>
    match simulation.timers.firstDue? simulation.now with
    | some (timer, timers) =>
      (settleWithin? rounds ({ simulation with timers }.handle timer.payload)).bind
        (runWithin? rounds budget)
    | none =>
      match simulation.firstDeadline? with
      | none => simulation.concludeWithin? rounds
      | some time =>
        if time ≤ simulation.stop then
          (settleWithin? rounds (simulation.evaluateAdvance time)).bind (runWithin? rounds budget)
        else simulation.concludeWithin? rounds

theorem run?_of_within (ended : runWithin? rounds budget simulation = some final) :
    simulation.run? budget = some final := by
  induction budget generalizing simulation with
  | zero => cases ended
  | succ budget ih =>
    rw [runWithin?] at ended
    rw [run?, step?, Timers.popDue?_eq_firstDue?, nextDeadline?_eq_firstDeadline?]
    cases popped : simulation.timers.firstDue? simulation.now with
    | some due =>
      rw [popped] at ended
      obtain ⟨next, settled, later⟩ := Option.bind_eq_some_iff.mp ended
      dsimp only
      rw [settle_of_within settled]
      exact ih later
    | none =>
      rw [popped] at ended
      cases deadline : simulation.firstDeadline? with
      | none =>
        rw [deadline] at ended
        exact congrArg some (conclude_of_within ended)
      | some time =>
        rw [deadline] at ended
        dsimp only at ended ⊢
        by_cases before : time ≤ simulation.stop
        · rw [if_pos before] at ended ⊢
          obtain ⟨next, settled, later⟩ := Option.bind_eq_some_iff.mp ended
          rw [advanceTo_of_within settled]
          exact ih later
        · rw [if_neg before] at ended ⊢
          exact congrArg some (conclude_of_within ended)

end Simulation

end NamedData
