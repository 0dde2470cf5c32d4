import Mathlib.Algebra.Order.BigOperators.Group.List
import NamedData.Proofs.DocumentNumbers
import NamedData.Proofs.Ticks

namespace NamedData

theorem Timers.exists_popDue? {α : Type} {timers : Timers α} {time limit : Instant}
    (next : timers.nextDeadline? = some time) (due : time ≤ limit) :
    ∃ first, timers.popDue? limit = some first := by
  obtain ⟨id, least, rfl⟩ := Option.map_eq_some_iff.mp next
  obtain ⟨present, _⟩ := Std.ExtTreeMap.minKey?_eq_some_iff_mem_and_forall.mp least
  unfold Timers.popDue?
  rw [least]
  dsimp only
  rw [if_pos due, Std.ExtTreeMap.getElem?_eq_some_getElem present]
  exact ⟨_, rfl⟩

namespace Forwarder

variable {forwarder : Forwarder}

theorem size_fireDue_le (time : Instant) :
    (forwarder.fireDue time).timers.running.size ≤ forwarder.timers.running.size := by
  induction forwarder using fireDue.induct time with
  | case1 forwarder idle =>
    rw [fireDue_of_idle idle]
  | case2 forwarder timer timers popped ih =>
    have fewer := Timers.size_popDue popped
    have unarmed := running_fire_le { forwarder with timers } timer.payload
    dsimp only at unarmed
    rw [fireDue_of_popped popped]
    omega

/-- A timer that is due is gone once the clock has moved on, and none has come. -/
theorem size_advanceTo_lt {time : Instant} {due : Timer TimerEvent × Timers TimerEvent}
    (popped : forwarder.timers.popDue? time = some due) :
    (forwarder.advanceTo time).timers.running.size < forwarder.timers.running.size := by
  obtain ⟨timer, timers⟩ := due
  have fewer := Timers.size_popDue popped
  have unarmed := running_fire_le { forwarder with timers } timer.payload
  have later := @size_fireDue_le ({ forwarder with timers }.fire timer.payload) time
  show (forwarder.fireDue time).timers.running.size < _
  rw [fireDue_of_popped popped]
  dsimp only at unarmed
  omega

end Forwarder

namespace Simulation

variable {simulation : Simulation} {move : Move} {timer : TimerId} {event : Event} {place : Nat}

/-- Links and consumers take their time: what is set by a move comes later than the move. -/
structure Unhurried (simulation : Simulation) : Prop where
  links : ∀ {place : Nat} {linkEnd : LinkEnd}, linkEnd ∈ simulation.layout.endsAt place →
    0 < linkEnd.delay.nanos
  consumers : ∀ {asker : Nat} {consumer : Consumer},
    simulation.consumers[asker]? = some consumer → 0 < consumer.interval.nanos

theorem Unhurried.perform (unhurried : simulation.Unhurried) (move : Move) :
    (simulation.perform move).Unhurried where
  links := by rw [layout_perform]; exact unhurried.links
  consumers found := by
    rw [consumers_perform] at found
    obtain ⟨old, was, rfl⟩ := Option.map_eq_some_iff.mp found
    rw [Consumer.interval_follow]
    exact unhurried.consumers was

theorem Unhurried.follow (unhurried : simulation.Unhurried) (moves : List Move) :
    (simulation.follow moves).Unhurried := by
  induction moves generalizing simulation with
  | nil => exact unhurried
  | cons move rest ih => exact ih (unhurried.perform move)

theorem Unhurried.scheduled (unhurried : simulation.Unhurried) (allowed : simulation.Allowed move)
    {set : Duration × Event} (member : set ∈ simulation.scheduled move) : 0 < set.1.nanos := by
  cases move with
  | sendOff place linkEnd =>
    obtain ⟨packet, _, rfl⟩ := List.mem_map.mp member
    exact unhurried.links allowed
  | happen =>
    simp only [Simulation.scheduled] at member
    split at member
    · obtain ⟨consumer, found, rfl⟩ := Option.map_eq_some_iff.mp (Option.mem_toList.mp member)
      exact unhurried.consumers found
    · cases member
  | feed place => cases member
  | serve place => cases member
  | advance time => cases member
  | giveUp time => cases member

/-- The events that are due. -/
def dueEvents (simulation : Simulation) : List TimerId :=
  simulation.timers.running.keys.filter (·.deadline ≤ simulation.now)

theorem mem_dueEvents : timer ∈ simulation.dueEvents ↔
    (∃ event, simulation.timers.running[timer]? = some event) ∧ timer.deadline ≤ simulation.now := by
  rw [dueEvents, List.mem_filter, Std.ExtTreeMap.mem_keys, Std.ExtTreeMap.mem_iff_isSome_getElem?,
    Option.isSome_iff_exists, decide_eq_true_eq]

theorem nodup_dueEvents : simulation.dueEvents.Nodup :=
  Std.ExtTreeMap.nodup_keys.filter _

/-- While the clock stands, no event comes to be due. -/
theorem Unhurried.dueEvents_perform (unhurried : simulation.Unhurried)
    (allowed : simulation.Allowed move) (still : ∀ time, move ≠ .advance time)
    (early : simulation.now < Duration.max) (due : timer ∈ (simulation.perform move).dueEvents) :
    timer ∈ simulation.dueEvents ∧ ∃ event, (simulation.leftBy move).running[timer]? = some event := by
  obtain ⟨⟨event, running⟩, passed⟩ := mem_dueEvents.mp due
  rw [now_perform still] at passed
  rw [timers_perform] at running
  rcases Timers.running_scheduleAll running with old | ⟨delay, member, set⟩
  · exact ⟨mem_dueEvents.mpr ⟨⟨event, running_leftBy old⟩, passed⟩, event, old⟩
  · rw [now_leftBy still] at set
    have later := Duration.lt_add_of_pos early (unhurried.scheduled allowed member)
    rw [← set] at later
    exact absurd passed (Nat.not_le_of_lt later)

theorem Unhurried.dueEvents_pumps (unhurried : simulation.Unhurried) {moves : List Move}
    (pumps : ∀ move ∈ moves, Pumps simulation.layout move) (early : simulation.now < Duration.max) :
    (simulation.follow moves).dueEvents ⊆ simulation.dueEvents := by
  induction moves generalizing simulation with
  | nil => exact List.Subset.refl _
  | cons move rest ih =>
    have pumps' := pumps move List.mem_cons_self
    have still : ∀ time, move ≠ .advance time := by
      rintro time rfl
      cases pumps'
    refine fun due later => (unhurried.dueEvents_perform pumps'.allowed still early ?_).1
    refine ih (unhurried.perform move) (fun other member => ?_) ?_ later
    · rw [layout_perform]
      exact pumps other (List.mem_cons_of_mem _ member)
    · rw [now_perform still]
      exact early

/-- An event that happens is due no more. -/
theorem Unhurried.dueEvents_happen (unhurried : simulation.Unhurried)
    (early : simulation.now < Duration.max) {due : Timer Event × Timers Event}
    (popped : simulation.timers.popDue? simulation.now = some due) :
    (simulation.follow (simulation.movesFrom .happen)).dueEvents.length <
      simulation.dueEvents.length := by
  obtain ⟨first, rest⟩ := due
  have still : ∀ time, Move.happen ≠ .advance time := nofun
  obtain ⟨runs, timely, _⟩ := Timers.popDue?_eq_some popped
  have present : first.id ∈ simulation.dueEvents := mem_dueEvents.mpr ⟨⟨_, runs⟩, timely⟩
  have fewer : (simulation.follow (simulation.movesFrom .happen)).dueEvents ⊆
      simulation.dueEvents.erase first.id := by
    intro timer later
    have early' : (simulation.perform .happen).now < Duration.max := by
      rw [now_perform still]
      exact early
    have here := (unhurried.perform .happen).dueEvents_pumps
      (fun _ member => pumps_settleMoves member) early' later
    have allowed : simulation.Allowed .happen := trivial
    obtain ⟨old, event, left⟩ := unhurried.dueEvents_perform allowed still early here
    simp only [leftBy, popped] at left
    exact (nodup_dueEvents.mem_erase_iff).mpr ⟨((Timers.runs_popped popped timer).mp left).1, old⟩
  have bound := (List.subperm_of_subset nodup_dueEvents fewer).length_le
  rw [List.length_erase_of_mem present] at bound
  have := List.length_pos_of_mem present
  omega

/-- How many timers run in the forwarders. -/
def armed (simulation : Simulation) : Nat :=
  (simulation.nodes.map (·.forwarder.timers.running.size)).sum

theorem armed_advance_lt {time : Instant} {node : Node} (member : node ∈ simulation.nodes)
    {due : Timer TimerEvent × Timers TimerEvent}
    (popped : node.forwarder.timers.popDue? time = some due) :
    (simulation.perform (.advance time)).armed < simulation.armed := by
  show (((simulation.nodes.map (·.advanceTo time))).map (·.forwarder.timers.running.size)).sum < _
  rw [List.map_map]
  refine List.sum_lt_sum _ _ (fun other _ => ?_) ⟨node, member, ?_⟩
  · exact Forwarder.size_fireDue_le time
  · exact Forwarder.size_advanceTo_lt popped

theorem run_gathers {forwarder : Forwarder} {actions : List Action}
    (gathers : ∀ action ∈ actions, ∃ face wanted, action = .collect face wanted) :
    (forwarder.run actions).timers = forwarder.timers := by
  induction actions generalizing forwarder with
  | nil => rfl
  | cons action rest ih =>
    obtain ⟨face, wanted, rfl⟩ := gathers action List.mem_cons_self
    exact ih fun other member => gathers other (List.mem_cons_of_mem _ member)

/-- Taking packets away arms no timer. -/
theorem Gathers.armed (gathers : simulation.Gathers move) :
    (simulation.perform move).armed = simulation.armed := by
  refine congrArg List.sum (List.ext_getElem? fun place => ?_)
  rw [List.getElem?_map, List.getElem?_map, nodes_perform, Option.map_map]
  refine Option.map_congr fun node _ => ?_
  exact congrArg (·.running.size) (run_gathers (gathers place))

theorem Settled.armed_pumps (settled : simulation.Settled) {moves : List Move}
    (pumps : ∀ move ∈ moves, Pumps simulation.layout move) :
    (simulation.follow moves).armed = simulation.armed := by
  induction moves generalizing simulation with
  | nil => rfl
  | cons move rest ih =>
    have gathers := settled.gathersPump (pumps move List.mem_cons_self)
    refine (ih (settled.gathers gathers) fun other member => ?_).trans gathers.armed
    rw [layout_perform]
    exact pumps other (List.mem_cons_of_mem _ member)

theorem earlier_eq_some {first other : Option Instant} {time : Instant}
    (next : earlier first other = some time) : first = some time ∨ other = some time := by
  cases first with
  | none => exact Or.inr next
  | some a =>
    cases other with
    | none => exact Or.inl next
    | some b =>
      rw [earlier, Option.some.injEq] at next
      have same : min a b = a ∨ min a b = b := Std.min_eq_or
      rw [next] at same
      exact same.imp (fun isFirst => by rw [isFirst]) fun isOther => by rw [isOther]

/-- The next deadline is that of an event or of a timer of a forwarder. -/
theorem exists_of_nextDeadline? {time : Instant} (next : simulation.nextDeadline? = some time) :
    simulation.timers.nextDeadline? = some time ∨
      ∃ node ∈ simulation.nodes, node.forwarder.timers.nextDeadline? = some time := by
  have found (nodes : List Node) (first : Option Instant)
      (next : nodes.foldl (fun next node => earlier next node.forwarder.nextDeadline?) first =
        some time) :
      first = some time ∨ ∃ node ∈ nodes, node.forwarder.timers.nextDeadline? = some time := by
    induction nodes generalizing first with
    | nil => exact Or.inl next
    | cons node rest ih =>
      rcases ih _ next with here | ⟨other, member, later⟩
      · exact (earlier_eq_some here).imp_right fun own => ⟨node, List.mem_cons_self, own⟩
      · exact Or.inr ⟨other, List.mem_cons_of_mem _ member, later⟩
  exact found _ _ next

/-- What a run has left: time, and at one time events and timers of forwarders. -/
def remaining (simulation : Simulation) : Nat × Nat × Nat :=
  (simulation.stop.nanos - simulation.now.nanos, simulation.dueEvents.length, simulation.armed)

/-- When the clock stands although no event is due, timers of forwarders go off. -/
theorem Settled.armed_advance_lt (settled : simulation.Settled)
    (idle : simulation.timers.popDue? simulation.now = none) {time : Instant}
    (deadline : simulation.nextDeadline? = some time) (stands : time ≤ simulation.now) :
    (simulation.follow (simulation.movesFrom (.advance time))).armed < simulation.armed := by
  have quiet := (settled.advance time).armed_pumps fun _ member => pumps_settleMoves member
  refine Nat.lt_of_le_of_lt (Nat.le_of_eq quiet) ?_
  rcases exists_of_nextDeadline? deadline with own | ⟨node, member, own⟩
  · obtain ⟨first, popped⟩ := Timers.exists_popDue? own stands
    cases idle.symm.trans popped
  · obtain ⟨first, popped⟩ := Timers.exists_popDue? own (Nat.le_refl time.nanos)
    exact Simulation.armed_advance_lt member popped

theorem Settled.timers_advance (settled : simulation.Settled) (time : Instant) :
    (simulation.follow (simulation.movesFrom (.advance time))).timers =
      simulation.timers.advanceTo time :=
  (settled.advance time).pumpAll fun _ member => pumps_settleMoves member

/-- Each step of a run takes something away. -/
theorem Unhurried.remaining_lt (unhurried : simulation.Unhurried) (settled : simulation.Settled)
    (early : simulation.now ≤ simulation.stop) (ends : simulation.stop < Duration.max)
    (next : simulation.next? = some move) :
    Prod.Lex (· < ·) (Prod.Lex (· < ·) (· < ·))
      (simulation.follow (simulation.movesFrom move)).remaining simulation.remaining := by
  have early' : simulation.now < Duration.max := Nat.lt_of_le_of_lt early ends
  unfold remaining
  rw [stop_follow, now_movesFrom]
  unfold next? at next
  split at next
  · rename_i due popped
    cases next
    have still : ∀ time, Move.happen ≠ .advance time := nofun
    rw [now_perform still]
    exact .right _ (.left _ _ (unhurried.dueEvents_happen early' popped))
  · rename_i idle
    split at next
    · cases next
    · rename_i time deadline
      split at next
      · rename_i within
        cases next
        have clock : (simulation.perform (.advance time)).now = max simulation.now time := rfl
        by_cases passes : simulation.now < time
        · refine .left _ _ ?_
          rw [clock, Duration.nanos_max]
          rw [Duration.lt_def] at passes
          rw [Duration.le_def] at within
          omega
        · have stands : max simulation.now time = simulation.now := Duration.ext (by
            rw [Duration.nanos_max]
            exact Nat.max_eq_left (Nat.le_of_not_lt passes))
          have same : (simulation.follow (simulation.movesFrom (.advance time))).dueEvents =
              simulation.dueEvents := by
            rw [dueEvents, now_movesFrom, clock, stands, settled.timers_advance]
            rfl
          rw [clock, stands, same]
          exact .right _ (.right _ (settled.armed_advance_lt idle deadline (Nat.le_of_not_lt passes)))
      · cases next

/-- A run ends where links and consumers take their time. The induction is on what is left. -/
theorem Unhurried.exists_run? {simulation : Simulation} (unhurried : simulation.Unhurried)
    (settled : simulation.Settled) (early : simulation.now ≤ simulation.stop)
    (ends : simulation.stop < Duration.max) :
    ∃ budget, (simulation.run? budget).isSome = true := by
  cases next : simulation.next? with
  | none => exact ⟨1, by rw [run?, step?_eq_follow, next]; rfl⟩
  | some move =>
    have fewer := unhurried.remaining_lt settled early ends next
    have within := now_next?_le early next
    have stop := @stop_follow simulation (simulation.movesFrom move)
    obtain ⟨budget, ended⟩ := exists_run? (unhurried.follow (simulation.movesFrom move))
      (settled_movesFrom move) (by rw [stop]; exact within) (by rw [stop]; exact ends)
    exact ⟨budget + 1, by rw [run?, step?_eq_follow, next]; exact ended⟩
termination_by simulation.remaining
decreasing_by exact fewer

section Setup

variable {scenario : Scenario} {added : Face} {linkEnd new : LinkEnd} {next : Simulation} {other : Nat}

theorem layout_addFace : (simulation.addFace place added).2.layout = simulation.layout := by
  cases found : simulation.forwarderAt? place with
  | none =>
    rw [forwarderAt?, Option.map_eq_none_iff] at found
    rw [addFace, found]
  | some forwarder =>
    rw [addFace_eq found]
    exact layout_updateNode _

theorem mem_endsAt_addLinkEnd
    (member : linkEnd ∈ (simulation.addLinkEnd place new).layout.endsAt other) :
    linkEnd ∈ simulation.layout.endsAt other ∨ linkEnd = new := by
  rw [layout_addLinkEnd, Layout.endsAt, List.getElem?_modify] at member
  rw [Layout.endsAt]
  cases found : simulation.layout.ends[other]? with
  | none =>
    rw [found] at member
    cases member
  | some ends =>
    rw [found] at member
    simp only [Option.map_eq_map, Option.map_some, Option.getD_some] at member
    split at member
    · exact (List.mem_append.mp member).imp_right List.mem_singleton.mp
    · exact Or.inl member

/-- The delays are those of the links of a scenario. -/
def Linked (scenario : Scenario) (simulation : Simulation) : Prop :=
  ∀ place, ∀ linkEnd ∈ simulation.layout.endsAt place,
    ∃ link ∈ scenario.links, linkEnd.delay = Duration.ofMillis link.delay

theorem Linked.of_layout (linked : simulation.Linked scenario)
    (same : next.layout.ends = simulation.layout.ends) : next.Linked scenario := by
  intro place linkEnd member
  rw [Layout.endsAt, same] at member
  exact linked place linkEnd member

theorem Linked.addFace (linked : simulation.Linked scenario) :
    (simulation.addFace place added).2.Linked scenario :=
  linked.of_layout (by rw [layout_addFace])

theorem Linked.addLink (linked : simulation.Linked scenario) {link : LinkSetting}
    (listed : link ∈ scenario.links) (made : addLink scenario simulation link = .ok next) :
    next.Linked scenario := by
  unfold Simulation.addLink at made
  obtain ⟨a, _, made⟩ := bind_eq_ok.mp made
  obtain ⟨b, _, made⟩ := bind_eq_ok.mp made
  cases made
  intro place linkEnd member
  rcases mem_endsAt_addLinkEnd member with member | rfl
  · rcases mem_endsAt_addLinkEnd member with old | rfl
    · exact linked.addFace.addFace place linkEnd old
    · exact ⟨link, listed, rfl⟩
  · exact ⟨link, listed, rfl⟩

theorem keptUp_linked : KeptUp scenario fun _ simulation => simulation.Linked scenario where
  link listed made linked := linked.addLink listed made
  route {simulation next route} made linked := by
    unfold addRoute at made
    obtain ⟨node, _, made⟩ := bind_eq_ok.mp made
    obtain ⟨neighbour, _, made⟩ := bind_eq_ok.mp made
    split at made
    · cases made
    · obtain ⟨under, _, made⟩ := bind_eq_ok.mp made
      cases made
      exact linked.of_layout (by rw [layout_updateNode])
  producer {simulation next setting} _ made linked := by
    obtain ⟨place, face, under, settled, id, _, isSettled, rfl⟩ := addProducer_eq_ok made
    have faced : (simulation.addFace place face).2.Linked scenario := linked.addFace
    rw [isSettled] at faced
    have routed : (settled.updateNode place fun forwarder =>
        forwarder.addRoute under { face := id, cost := 0 }).Linked scenario :=
      faced.of_layout (by rw [layout_updateNode])
    exact routed.of_layout rfl
  consumer {done simulation next setting} _ made linked := by
    obtain ⟨place, face, settled, id, start, consumer, isSettled, _, rfl⟩ := addConsumer_eq_ok made
    have faced : (simulation.addFace place face).2.Linked scenario := linked.addFace
    rw [isSettled] at faced
    exact faced.of_layout rfl

theorem linked_bare {nodes : List Node} {nonces : NonceSource} {stop : Instant}
    (bare : ∀ node ∈ nodes, node.linkEnds = []) : Linked scenario { stop, nodes, nonces } := by
  intro place linkEnd member
  obtain ⟨node, found, listed⟩ := mem_endsAt.mp member
  rw [bare node (List.mem_of_getElem? found)] at listed
  cases listed

/-- The run of a scenario ends, if it passes the check, each of its links takes some time and
no frequency is so low that there is no interval. -/
theorem exists_run_of_check (passed : scenario.check = .ok ())
    (canonical : ∀ setting ∈ scenario.consumers, setting.frequency.IsCanonical)
    (spans : ∀ setting ∈ scenario.consumers, setting.interval?.isSome = true)
    (slow : ∀ link ∈ scenario.links, 0 < link.delay)
    (short : scenario.duration < 18446744073709551616) (nonces : NonceSource) :
    ∃ start budget final, ofScenario scenario nonces = .ok start ∧ start.run? budget = some final := by
  obtain ⟨start, made, setUp, linked⟩ := exists_ofScenario_keeping passed spans nonces
    keptUp_linked fun _ fresh => linked_bare fun node member => (fresh node member).2
  obtain ⟨same, made', _, ticking⟩ := exists_ofScenario_keeping passed spans nonces
    keptUp_ticking fun nodes _ => ticking_bare nodes nonces
  cases made.symm.trans made'
  have unhurried : start.Unhurried := by
    refine ⟨fun {place linkEnd} member => ?_, fun found => ?_⟩
    · obtain ⟨link, listed, delay⟩ := linked place linkEnd member
      have positive := slow link listed
      rw [delay]
      simp only [Duration.ofMillis, Duration.nanos_ofNanos, Duration.longest]
      omega
    · obtain ⟨setting, listed, interval⟩ := ticking.exists_setting found
      have accepted := (Scenario.valid_of_check passed).frequency listed
      have micro := (ConsumerSetting.interval?_spec accepted (canonical setting listed)).2 _ interval
      exact Nat.lt_of_lt_of_le (by decide) micro
  obtain ⟨early, ends⟩ := setUp.early short
  obtain ⟨budget, ended⟩ := unhurried.exists_run? setUp.settled early ends
  obtain ⟨final, isFinal⟩ := Option.isSome_iff_exists.mp ended
  exact ⟨start, budget, final, made, isFinal⟩

/-- In particular that of a scenario that was read from a text. -/
theorem exists_run_of_ofToml {text : String} (read : Scenario.ofToml text = .ok scenario)
    (spans : ∀ setting ∈ scenario.consumers, setting.interval?.isSome = true)
    (slow : ∀ link ∈ scenario.links, 0 < link.delay) (nonces : NonceSource) :
    ∃ start budget final, ofScenario scenario nonces = .ok start ∧ start.run? budget = some final := by
  obtain ⟨passed, lasts, canonical⟩ := Scenario.numbers_of_ofToml read
  exact exists_run_of_check passed canonical spans slow (Nat.lt_succ_of_le lasts) nonces

end Setup

end Simulation

end NamedData
