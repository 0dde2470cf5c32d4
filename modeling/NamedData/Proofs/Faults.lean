import NamedData.Simulation.Report
import NamedData.Proofs.Counting
import NamedData.Proofs.LinkTransit

namespace NamedData

namespace Forwarder

variable {forwarder : Forwarder} {action : Action}

/-- A forwarder that has counted no fault, and whose routes and entries will make for
none. -/
structure Blameless (forwarder : Forwarder) : Prop where
  sound : forwarder.Sound
  routed : forwarder.Routed
  faults : ∀ counter ∈ Counter.faults, forwarder.counters.value counter = 0

theorem Untouched.blameless (untouched : forwarder.Untouched) : forwarder.Blameless := by
  refine ⟨untouched.sound, untouched.routed, fun counter _ => ?_⟩
  rw [untouched.counters]
  cases counter <;> rfl

end Forwarder

namespace Simulation

variable {simulation : Simulation} {place : Nat} {move : Move} {action : Action}
  {forwarder : Forwarder}

/-- What a simulation does to a forwarder: something happens on a face, or time passes. -/
inductive Driven : Action → Prop
  | on {face : FaceId} {action : Action} (on : On face action) : Driven action
  | fires (limit : Instant) : Driven (.fireNext limit)
  | passes (time : Instant) : Driven (.passTime time)

theorem driven_of_calls (called : action ∈ simulation.calls place move) : Driven action := by
  rcases move.still_or_advances with still | ⟨time, rfl⟩
  · obtain ⟨face, causes⟩ := causes_of_calls still called
    exact .on causes.on
  · rcases mem_calls_advance called with rfl | rfl
    · exact .fires time
    · exact .passes time

theorem Driven.begun (driven : Driven action) : (forwarder.begun action).fib = forwarder.fib ∧
    (forwarder.begun action).faces = forwarder.faces := by
  cases driven with
  | on on => cases on <;> exact ⟨rfl, rfl⟩
  | fires limit =>
    simp only [Forwarder.begun]
    split <;> exact ⟨rfl, rfl⟩
  | passes time =>
    simp only [Forwarder.begun, Forwarder.act]
    split <;> exact ⟨rfl, rfl⟩

theorem Driven.every {Fine : Name → FaceId → Prop} (driven : Driven action)
    (filed : forwarder.pit.Filed) (every : forwarder.fib.Every Fine) :
    (forwarder.act action).fib.Every Fine := by
  refine Forwarder.Steps.every (Forwarder.act_steps filed action) ?_
  rw [driven.begun.1]
  exact every

theorem Driven.routed (driven : Driven action) (filed : forwarder.pit.Filed)
    (routed : forwarder.Routed) : (forwarder.act action).Routed := by
  refine Forwarder.Steps.routed (Forwarder.act_steps filed action) ?_
  rw [Forwarder.Routed, driven.begun.1, driven.begun.2]
  exact routed

/-- A simulation gives a forwarder no cause for a fault. -/
theorem Driven.blameless (driven : Driven action) (blameless : forwarder.Blameless) :
    (forwarder.act action).Blameless := by
  obtain ⟨sound, routed, faults⟩ := blameless
  refine ⟨sound.act action, driven.routed sound.matched.filed routed, fun counter fault => ?_⟩
  have faultless : Forwarder.Faultless Counter.faults forwarder action := by
    refine ⟨fun _ => ⟨sound, routed, ?_, ?_⟩, fun _ => ?_⟩
    · rintro id face hint newNonce rfl
      cases driven with | on on => cases on
    · rintro data face rfl
      cases driven with | on on => cases on
    · rintro id rfl
      cases driven with | on on => cases on
  rw [(Forwarder.grows_act (List.Subset.refl _) faultless).same counter fault]
  exact faults counter fault

theorem blameless_run {actions : List Action} (driven : ∀ action ∈ actions, Driven action)
    (blameless : forwarder.Blameless) : (forwarder.run actions).Blameless := by
  induction actions generalizing forwarder with
  | nil => exact blameless
  | cons action rest ih =>
    exact ih (fun later member => driven later (List.mem_cons_of_mem _ member))
      ((driven action List.mem_cons_self).blameless blameless)

/-- None of the forwarders has counted a fault, or will. -/
def Blameless (simulation : Simulation) : Prop :=
  ∀ node ∈ simulation.nodes, node.forwarder.Blameless

theorem Blameless.perform (blameless : simulation.Blameless) (move : Move) :
    (simulation.perform move).Blameless := by
  intro node member
  obtain ⟨place, found⟩ := List.mem_iff_getElem?.mp member
  rw [nodes_perform] at found
  obtain ⟨old, atPlace, rfl⟩ := Option.map_eq_some_iff.mp found
  exact blameless_run (fun _ => driven_of_calls) (blameless old (List.mem_of_getElem? atPlace))

theorem Blameless.follow (blameless : simulation.Blameless) (moves : List Move) :
    (simulation.follow moves).Blameless := by
  induction moves generalizing simulation with
  | nil => exact blameless
  | cons move rest ih => exact ih (blameless.perform move)

theorem SetUp.blameless {scenario : Scenario} {links : List LinkSetting}
    {asking : List ConsumerSetting} (setUp : SetUp scenario links asking simulation) :
    simulation.Blameless := by
  intro node member
  obtain ⟨place, atPlace⟩ := List.mem_iff_getElem?.mp member
  exact (setUp.untouched (by rw [Simulation.forwarderAt?, atPlace]; rfl)).blameless

/-- A scenario that passes its check can be set up, and at no point of its run has any
node sent to a face that is not there, or given up an Interest that awaits an answer. -/
theorem checked_scenarios_run_without_faults {scenario : Scenario}
    (passed : scenario.check = .ok ())
    (spans : ∀ setting ∈ scenario.consumers, setting.interval?.isSome = true) (nonces : NonceSource) :
    ∃ start, ofScenario scenario nonces = .ok start ∧
      (∀ {budget : Nat} {earlier later : List Move}, start.moves budget = earlier ++ later →
        ∀ node ∈ (start.follow earlier).nodes,
          node.forwarder.counters.invalidFaceSends = 0 ∧
            node.forwarder.counters.strategyViolations = 0) ∧
      ∀ {budget : Nat} {final : Simulation}, start.run? budget = some final →
        ∀ report ∈ final.report.nodes,
          report.counters.invalidFaceSends = 0 ∧ report.counters.strategyViolations = 0 := by
  obtain ⟨start, made, setUp⟩ := exists_ofScenario passed spans nonces
  have clean (moves : List Move) (node : Node) (member : node ∈ (start.follow moves).nodes) :
      node.forwarder.counters.invalidFaceSends = 0 ∧
        node.forwarder.counters.strategyViolations = 0 := by
    have faults := (setUp.blameless.follow moves node member).faults
    exact ⟨faults .invalidFaceSends (by decide), faults .strategyViolations (by decide)⟩
  refine ⟨start, made, fun _ => clean _, fun ended report listed => ?_⟩
  rw [run?_eq_follow ended] at listed
  obtain ⟨node, member, rfl⟩ := List.mem_map.mp listed
  exact clean _ node member

/-- While two neighbours send each other three Interests and the Data for them, neither
counts a fault. -/
theorem neighbours_run_without_faults : neighbours.check = .ok () ∧
    (∀ setting ∈ neighbours.consumers, setting.interval?.isSome = true) ∧
    ∃ start final, ofScenario { neighbours with duration := 250 } (.scrambled 1) = .ok start ∧
      start.run? 50 = some final ∧
      final.report.nodes.map (fun report => (report.counters.outInterests, report.counters.outData)) =
        [(3, 3), (3, 3)] ∧
      ∀ report ∈ final.report.nodes,
        report.counters.invalidFaceSends = 0 ∧ report.counters.strategyViolations = 0 := by
  have passed : neighbours.check = .ok () := by decide +kernel
  have spans : ∀ setting ∈ neighbours.consumers, setting.interval?.isSome = true := by
    decide +kernel
  obtain ⟨start, made, -, clean⟩ := @checked_scenarios_run_without_faults
    { neighbours with duration := 250 } passed spans (.scrambled 1)
  have busy : ((ofScenario { neighbours with duration := 250 } (.scrambled 1)).toOption.bind
      (runWithin? 5 50)).map (·.report.nodes.map fun report =>
        (report.counters.outInterests, report.counters.outData)) = some [(3, 3), (3, 3)] := by
    decide +kernel
  rw [made] at busy
  obtain ⟨final, ended, counts⟩ := Option.map_eq_some_iff.mp busy
  exact ⟨passed, spans, start, final, made, run?_of_within ended, counts,
    fun _ => clean (run?_of_within ended) _⟩

end Simulation

end NamedData
