import NamedData.Proofs.Setup

namespace NamedData

namespace Simulation

variable {scenario : Scenario} {simulation next : Simulation} {place : Nat} {face : Face}

/-- The applications, and what is to happen, stay as they were. -/
structure SameApps (before after : Simulation) : Prop where
  consumers : after.consumers = before.consumers
  producers : after.producers = before.producers
  timers : after.timers = before.timers

theorem SameApps.trans {middle : Simulation} (first : SameApps simulation middle)
    (second : SameApps middle next) : SameApps simulation next :=
  ⟨second.consumers.trans first.consumers, second.producers.trans first.producers,
    second.timers.trans first.timers⟩

theorem sameApps_addFace : SameApps simulation (simulation.addFace place face).2 := by
  unfold addFace
  split <;> exact ⟨rfl, rfl, rfl⟩

theorem sameApps_addLink {link : LinkSetting} (added : addLink scenario simulation link = .ok next) :
    SameApps simulation next := by
  unfold addLink at added
  obtain ⟨a, _, added⟩ := bind_eq_ok.mp added
  obtain ⟨b, _, added⟩ := bind_eq_ok.mp added
  cases added
  exact sameApps_addFace.trans (sameApps_addFace.trans ⟨rfl, rfl, rfl⟩)

theorem sameApps_addRoute {route : RouteSetting} (added : addRoute scenario simulation route = .ok next) :
    SameApps simulation next := by
  unfold addRoute at added
  obtain ⟨node, _, added⟩ := bind_eq_ok.mp added
  obtain ⟨neighbour, _, added⟩ := bind_eq_ok.mp added
  split at added
  · cases added
  · obtain ⟨under, _, added⟩ := bind_eq_ok.mp added
    cases added
    exact ⟨rfl, rfl, rfl⟩

/-- A producer comes last, behind a new face that its prefix leads to. -/
theorem addProducer_eq_ok {setting : ProducerSetting}
    (added : addProducer scenario simulation setting = .ok next) :
    ∃ place face under settled id, scenario.place? setting.node = some place ∧
      simulation.addFace place face = (id, settled) ∧
      next = { settled.updateNode place fun forwarder =>
          forwarder.addRoute under { face := id, cost := 0 } with
        producers := settled.producers ++ [.start place id under setting.payloadSize
          (setting.freshness.map Duration.ofMillis)] } := by
  unfold addProducer at added
  obtain ⟨place, found, added⟩ := bind_eq_ok.mp added
  obtain ⟨under, _, added⟩ := bind_eq_ok.mp added
  cases added
  refine ⟨place, _, under, _, _, ?_, rfl, rfl⟩
  unfold Scenario.findNode at found
  split at found
  · rename_i other isOther
    cases found
    exact isOther
  · cases found

/-- A consumer comes last, behind a new face, and waits for its first turn. -/
theorem addConsumer_eq_ok {setting : ConsumerSetting}
    (added : addConsumer scenario simulation setting = .ok next) :
    ∃ place face settled id start consumer, simulation.addFace place face = (id, settled) ∧
      setting.interval? = some consumer.interval ∧
      next = { settled with
        timers := (settled.timers.scheduleAt start (.tick settled.consumers.length)).2
        consumers := settled.consumers ++ [consumer] } := by
  unfold addConsumer at added
  obtain ⟨place, _, added⟩ := bind_eq_ok.mp added
  obtain ⟨under, _, added⟩ := bind_eq_ok.mp added
  split at added
  · cases added
  · rename_i interval isInterval
    cases added
    exact ⟨place, _, _, _, _, _, rfl, isInterval, rfl⟩

end Simulation

end NamedData
