import NamedData.Proofs.Intervals
import NamedData.Proofs.RoundTrips
import NamedData.Proofs.SetupParts

namespace NamedData

namespace Timers

variable {α : Type} {timers rest : Timers α} {event : α} {timer : TimerId}

/-- One timer runs for an event, and no other. -/
def Sole (timers : Timers α) (event : α) (timer : TimerId) : Prop :=
  ∀ other, timers.running[other]? = some event ↔ other = timer

/-- Timers for other events change nothing. -/
theorem runs_scheduleAll (numbered : timers.Numbered) {events : List (Duration × α)}
    (others : ∀ set ∈ events, set.2 ≠ event) (other : TimerId) :
    (timers.scheduleAll events).running[other]? = some event ↔ timers.running[other]? = some event := by
  induction events generalizing timers with
  | nil => exact Iff.rfl
  | cons first more ih =>
    have numbered' : (timers.schedule first.1 first.2).2.Numbered := numbered.scheduleAt _ _
    refine (ih numbered' fun set member => others set (List.mem_cons_of_mem _ member)).trans ?_
    unfold schedule
    rw [runs_scheduleAt numbered]
    exact or_iff_right fun new => others first List.mem_cons_self new.2

/-- When its one timer is popped, an event has none until it is set again. -/
theorem Sole.again (sole : timers.Sole event timer) (numbered : rest.Numbered) {limit : Instant}
    {due : Timer α} (popped : timers.popDue? limit = some (due, rest)) (mine : due.payload = event)
    (delay : Duration) :
    due.id = timer ∧ (rest.schedule delay event).2.Sole event (rest.schedule delay event).1 := by
  obtain ⟨running, _, _⟩ := popDue?_eq_some popped
  rw [mine] at running
  have same := (sole due.id).mp running
  refine ⟨same, fun other => ?_⟩
  unfold schedule
  rw [runs_scheduleAt numbered, runs_popped popped, sole other, same]
  simp

end Timers

namespace Consumer

theorem interval_follow (consumer : Consumer) (turns : List Turn) :
    (consumer.follow turns).interval = consumer.interval := by
  induction turns generalizing consumer with
  | nil => rfl
  | cons turn rest ih =>
    refine (ih (consumer.take turn)).trans ?_
    cases turn with
    | receive data now =>
      simp only [take, receive]
      split <;> rfl
    | expire now => rfl
    | issue now nonce => rfl

end Consumer

namespace Simulation

open Consumer (Turn throughout asks)

variable {simulation : Simulation} {asker : Nat} {first : Consumer} {turns : List Turn} {move : Move}

/-- What is known of the turns of a consumer at any time: it waits for one, that comes no
sooner after any that it had than its interval, as they came after each other. -/
structure Paced (simulation : Simulation) (asker : Nat) (first : Consumer) (turns : List Turn) :
    Prop where
  found : simulation.consumers[asker]? = some (first.follow turns)
  next : ∃ timer, simulation.timers.Sole (.tick asker) timer ∧
    ∀ request ∈ throughout asks first turns, request.2 + first.interval ≤ timer.deadline
  apart : (throughout asks first turns).Pairwise fun a b => a.2 + first.interval ≤ b.2

/-- The turn comes, and the next one is an interval away. -/
theorem Paced.ask (paced : simulation.Paced asker first turns) (numbered : simulation.timers.Numbered)
    (turn : simulation.IsTurn asker move) :
    (simulation.perform move).Paced asker first (turns ++ simulation.turns asker move) := by
  obtain ⟨nonce, isTurns, _⟩ := turn.asks paced.found
  obtain ⟨timer, sole, before⟩ := paced.next
  obtain ⟨due, rest, rfl, popped, event⟩ := turn
  have new : throughout asks (first.follow turns) (simulation.turns asker .happen) =
      [((first.follow turns).under.appendSequence (first.follow turns).nextNumber, simulation.now)] := by
    rw [isTurns]
    rfl
  obtain ⟨_, timely, _⟩ := Timers.popDue?_eq_some popped
  have left : simulation.leftBy .happen = rest := by simp only [leftBy, popped]
  have numbered' := numbered_leftBy numbered .happen
  have clock := @now_leftBy simulation .happen fun _ same => by cases same
  rw [left] at numbered' clock
  obtain ⟨mine, sole'⟩ := sole.again numbered' popped event first.interval
  have timers : (simulation.perform .happen).timers = (rest.schedule first.interval (.tick asker)).2 := by
    obtain ⟨id, payload⟩ := due
    cases event
    rw [timers_perform, left]
    simp only [scheduled, popped, paced.found, Option.map_some, Option.toList_some,
      Consumer.interval_follow]
    rfl
  have deadline := @Timers.deadline_schedule _ rest first.interval (Event.tick asker)
  rw [clock] at deadline
  refine ⟨?_, ⟨_, by rw [timers]; exact sole', fun request member => ?_⟩, ?_⟩
  · rw [consumers_perform, paced.found, Consumer.follow_append]
    rfl
  · rw [deadline]
    rw [Consumer.throughout_append, new] at member
    rcases List.mem_append.mp member with old | here
    · have passed := before request old
      rw [← mine] at passed
      exact Nat.le_trans (Nat.le_trans passed timely) (Duration.le_add _ _)
    · rw [List.mem_singleton.mp here]
      exact Nat.le_refl _
  · rw [Consumer.throughout_append, new, List.pairwise_append]
    refine ⟨paced.apart, List.pairwise_singleton _ _, fun request old later here => ?_⟩
    rw [List.mem_singleton.mp here]
    have passed := before request old
    rw [← mine] at passed
    exact Nat.le_trans passed timely

/-- Only its turn sets the next turn of a consumer. -/
theorem ne_tick_of_scheduled (other : ¬ simulation.IsTurn asker move) {set : Duration × Event}
    (member : set ∈ simulation.scheduled move) : set.2 ≠ .tick asker := by
  intro same
  cases move with
  | sendOff place linkEnd =>
    obtain ⟨packet, _, rfl⟩ := List.mem_map.mp member
    cases same
  | happen =>
    simp only [scheduled] at member
    split at member
    · rename_i id place rest popped
      obtain ⟨consumer, _, rfl⟩ := Option.map_eq_some_iff.mp (Option.mem_toList.mp member)
      cases same
      exact other ⟨_, _, rfl, popped, rfl⟩
    · cases member
  | feed place => cases member
  | serve place => cases member
  | advance time => cases member
  | giveUp time => cases member

/-- Only its turn takes away the timer that a consumer waits for. -/
theorem runs_leftBy_tick (other : ¬ simulation.IsTurn asker move) (timer : TimerId) :
    (simulation.leftBy move).running[timer]? = some (.tick asker) ↔
      simulation.timers.running[timer]? = some (.tick asker) := by
  cases move with
  | happen =>
    simp only [leftBy]
    split
    · rename_i due rest popped
      rw [Timers.runs_popped popped]
      refine and_iff_right_of_imp fun running same => other ⟨_, _, rfl, popped, ?_⟩
      obtain ⟨here, _, _⟩ := Timers.popDue?_eq_some popped
      rw [same, here] at running
      exact Option.some.inj running
    · exact Iff.rfl
  | _ => exact Iff.rfl

/-- Whatever else happens leaves the turn that a consumer waits for. -/
theorem Paced.others (paced : simulation.Paced asker first turns)
    (numbered : simulation.timers.Numbered) (other : ¬ simulation.IsTurn asker move) :
    (simulation.perform move).Paced asker first (turns ++ simulation.turns asker move) := by
  obtain ⟨timer, sole, before⟩ := paced.next
  have quiet : throughout asks (first.follow turns) (simulation.turns asker move) = [] := by
    rcases turns_of_not_isTurn other paced.found with isTurns | ⟨time, isTurns⟩ | isTurns <;>
      rw [isTurns]
    · rfl
    · rfl
    · exact Consumer.asks_receives _
  refine ⟨?_, ⟨timer, fun id => ?_, ?_⟩, ?_⟩
  · rw [consumers_perform, paced.found, Consumer.follow_append]
    rfl
  · rw [timers_perform, Timers.runs_scheduleAll (numbered_leftBy numbered move) fun _ =>
      ne_tick_of_scheduled other, runs_leftBy_tick other]
    exact sole id
  · rw [Consumer.throughout_append, quiet, List.append_nil]
    exact before
  · rw [Consumer.throughout_append, quiet, List.append_nil]
    exact paced.apart

theorem Paced.follow (paced : simulation.Paced asker first turns)
    (numbered : simulation.timers.Numbered) (moves : List Move) :
    (simulation.follow moves).Paced asker first (turns ++ turnsOf asker simulation moves) := by
  induction moves generalizing simulation turns with
  | nil =>
    rw [turnsOf, List.append_nil]
    exact paced
  | cons move rest ih =>
    have stepped : (simulation.perform move).Paced asker first (turns ++ simulation.turns asker move) := by
      by_cases turn : simulation.IsTurn asker move
      · exact paced.ask numbered turn
      · exact paced.others numbered turn
    have numbered' : (simulation.perform move).timers.Numbered := by
      rw [timers_perform]
      exact (numbered_leftBy numbered move).scheduleAll _
    have later := ih stepped numbered'
    rw [turnsOf, ← List.append_assoc]
    exact later

theorem now_follow_pumps {moves : List Move} (pumps : ∀ move ∈ moves, Pumps simulation.layout move) :
    (simulation.follow moves).now = simulation.now := by
  induction moves generalizing simulation with
  | nil => rfl
  | cons move rest ih =>
    have still : ∀ time, move ≠ .advance time := by
      rintro time rfl
      cases pumps _ List.mem_cons_self
    refine (ih fun later member => ?_).trans (now_perform still)
    rw [layout_perform]
    exact pumps later (List.mem_cons_of_mem _ member)

theorem now_movesFrom (move : Move) :
    (simulation.follow (simulation.movesFrom move)).now = (simulation.perform move).now :=
  now_follow_pumps fun _ member => pumps_settleMoves member

theorem now_next?_le (early : simulation.now ≤ simulation.stop) (next : simulation.next? = some move) :
    (simulation.follow (simulation.movesFrom move)).now ≤ simulation.stop := by
  rw [now_movesFrom]
  unfold next? at next
  split at next
  · cases next
    rw [now_perform fun _ same => by cases same]
    exact early
  · split at next
    · cases next
    · split at next
      · cases next
        exact Std.max_le_iff.mpr ⟨early, ‹_›⟩
      · cases next

/-- The clock goes no further than to the end of the run. -/
theorem now_moves_le (early : simulation.now ≤ simulation.stop) (budget : Nat) :
    (simulation.follow (simulation.moves budget)).now ≤ simulation.stop := by
  induction budget generalizing simulation with
  | zero => exact early
  | succ budget ih =>
    rw [moves]
    cases next : simulation.next? with
    | none =>
      have last := @now_movesFrom simulation (.advance simulation.stop)
      have stays := @now_perform (simulation.follow (simulation.movesFrom (.advance simulation.stop)))
        (.giveUp simulation.stop) fun _ same => by cases same
      rw [lastMoves, follow_append]
      change ((simulation.follow (simulation.movesFrom (.advance simulation.stop))).perform
        (.giveUp simulation.stop)).now ≤ _
      rw [stays, last]
      exact Std.max_le_iff.mpr ⟨early, Nat.le_refl _⟩
    | some move =>
      have within := now_next?_le early next
      rw [follow_append]
      rw [← stop_follow (simulation.movesFrom move)] at within ⊢
      exact ih within

section Setup

variable {scenario : Scenario} {asking : List ConsumerSetting} {next : Simulation}

/-- What is known of the consumers while a simulation is set up: each has the interval that
was asked for and waits for its first turn. -/
structure Ticking (asking : List ConsumerSetting) (simulation : Simulation) : Prop where
  intervals : List.Forall₂ (fun setting consumer => setting.interval? = some consumer.interval)
    asking simulation.consumers
  waits : ∀ asker < simulation.consumers.length, ∃ timer, simulation.timers.Sole (.tick asker) timer
  known : ∀ {timer : TimerId} {asker : Nat},
    simulation.timers.running[timer]? = some (.tick asker) → asker < simulation.consumers.length

theorem ticking_bare (nodes : List Node) (nonces : NonceSource) {stop : Instant} :
    Ticking [] { stop, nodes, nonces } :=
  ⟨.nil, fun _ within => absurd within (Nat.not_lt_zero _), fun running => by
    rw [show (Timers.running _)[_]? = none from Std.ExtTreeMap.getElem?_empty] at running
    cases running⟩

theorem Ticking.exists_setting (ticking : Ticking asking simulation)
    (found : simulation.consumers[asker]? = some first) :
    ∃ setting ∈ asking, setting.interval? = some first.interval := by
  obtain ⟨bound, same⟩ := List.getElem?_eq_some_iff.mp found
  obtain ⟨length, each⟩ := List.forall₂_iff_get.mp ticking.intervals
  have bound' : asker < asking.length := length ▸ bound
  have interval := each asker bound' bound
  rw [List.get_eq_getElem, List.get_eq_getElem, same] at interval
  exact ⟨_, List.getElem_mem bound', interval⟩

theorem Ticking.of_same (ticking : Ticking asking simulation) (same : SameApps simulation next) :
    Ticking asking next := by
  obtain ⟨consumers, _, timers⟩ := same
  refine ⟨consumers ▸ ticking.intervals, ?_, ?_⟩
  · rw [consumers, timers]
    exact ticking.waits
  · rw [consumers, timers]
    exact ticking.known

theorem Ticking.addConsumer (ticking : Ticking asking simulation)
    (numbered : simulation.timers.Numbered) {setting : ConsumerSetting}
    (added : addConsumer scenario simulation setting = .ok next) :
    Ticking (asking ++ [setting]) next := by
  obtain ⟨place, face, settled, id, start, consumer, isSettled, interval, rfl⟩ :=
    addConsumer_eq_ok added
  have same : SameApps simulation settled := by
    have added := @sameApps_addFace simulation place face
    rwa [isSettled] at added
  have ticking := ticking.of_same same
  rw [← same.timers] at numbered
  refine ⟨List.rel_append ticking.intervals (.cons interval .nil), fun asker within => ?_,
    fun {timer asker} running => ?_⟩
  · simp only [List.length_append, List.length_cons, List.length_nil] at within
    rcases Nat.lt_or_eq_of_le (Nat.le_of_lt_succ within) with old | rfl
    · obtain ⟨timer, sole⟩ := ticking.waits asker old
      refine ⟨timer, fun other => ?_⟩
      rw [Timers.runs_scheduleAt numbered, sole other]
      refine or_iff_right fun new => ?_
      cases new.2
      exact Nat.lt_irrefl _ old
    · refine ⟨(settled.timers.scheduleAt start (.tick settled.consumers.length)).1, fun other => ?_⟩
      rw [Timers.runs_scheduleAt numbered]
      refine (or_iff_left fun running => ?_).trans (and_iff_left rfl)
      exact Nat.lt_irrefl _ (ticking.known running)
  · simp only [List.length_append, List.length_cons, List.length_nil]
    rcases (Timers.runs_scheduleAt numbered timer).mp running with new | old
    · cases new.2
      exact Nat.lt_succ_self _
    · exact Nat.lt_succ_of_lt (ticking.known old)

theorem keptUp_ticking : KeptUp scenario Ticking where
  link _ added ticking := ticking.of_same (sameApps_addLink added)
  route added ticking := ticking.of_same (sameApps_addRoute added)
  producer {simulation next setting} _ added ticking := by
    obtain ⟨place, face, under, settled, id, _, isSettled, rfl⟩ := addProducer_eq_ok added
    have same := @sameApps_addFace simulation place face
    rw [isSettled] at same
    have ticking := ticking.of_same same
    exact ⟨ticking.intervals, ticking.waits, ticking.known⟩
  consumer setUp added ticking := ticking.addConsumer setUp.numbered added

theorem SetUp.early {links : List LinkSetting} (setUp : SetUp scenario links asking simulation)
    (short : scenario.duration < 18446744073709551616) :
    simulation.now ≤ simulation.stop ∧ simulation.stop < Duration.max := by
  rw [setUp.clock, setUp.stop]
  refine ⟨Nat.zero_le _, ?_⟩
  rw [Duration.lt_def]
  simp only [Duration.max, Duration.ofMillis, Duration.nanos_ofNanos, Duration.longest]
  omega

/-- A frequency that passes the check gives an interval of at least a microsecond, which
moves the clock on from any time but the last, unless it is one of the frequencies of at
most 2^-64: these have none. Where there are none of these, each consumer of a run takes its
turns one after the other, an interval or more apart. -/
theorem accepted_frequencies_are_usable_but_the_least (passed : scenario.check = .ok ())
    (canonical : ∀ setting ∈ scenario.consumers, setting.frequency.IsCanonical) :
    (∀ setting ∈ scenario.consumers,
      (setting.interval? = none ↔ setting.frequency.IsAtMost 1 (Binary64.twoTo 64)) ∧
        ∀ interval, setting.interval? = some interval → Duration.ofNanos 1000 ≤ interval ∧
          ∀ now < Duration.max, now < now + interval) ∧
      ((∀ setting ∈ scenario.consumers, ¬ setting.frequency.IsAtMost 1 (Binary64.twoTo 64)) →
        scenario.duration < 18446744073709551616 → ∀ nonces, ∃ start,
          ofScenario scenario nonces = .ok start ∧
          List.Forall₂ (fun setting consumer => setting.interval? = some consumer.interval)
            scenario.consumers start.consumers ∧
          ∀ budget asker first, start.consumers[asker]? = some first →
            (throughout asks first (turnsOf asker start (start.moves budget))).Pairwise
              fun request later => request.2 + first.interval ≤ later.2 ∧ request.2 < later.2) := by
  have usable : ∀ setting ∈ scenario.consumers,
      (setting.interval? = none ↔ setting.frequency.IsAtMost 1 (Binary64.twoTo 64)) ∧
        ∀ interval, setting.interval? = some interval → Duration.ofNanos 1000 ≤ interval := by
    intro setting listed
    exact ConsumerSetting.interval?_spec ((Scenario.valid_of_check passed).frequency listed)
      (canonical setting listed)
  refine ⟨fun setting listed => ⟨(usable setting listed).1, fun interval found => ?_⟩,
    fun frequent short nonces => ?_⟩
  · have micro := (usable setting listed).2 interval found
    exact ⟨micro, fun now early => Duration.lt_add early micro⟩
  have spans : ∀ setting ∈ scenario.consumers, setting.interval?.isSome = true := by
    intro setting listed
    rw [Option.isSome_iff_ne_none]
    exact fun none => frequent setting listed ((usable setting listed).1.mp none)
  obtain ⟨start, made, setUp, ticking⟩ := exists_ofScenario_keeping passed spans nonces
    keptUp_ticking fun nodes _ => ticking_bare nodes nonces
  refine ⟨start, made, ticking.intervals, fun budget asker first found => ?_⟩
  obtain ⟨bound, _⟩ := List.getElem?_eq_some_iff.mp found
  obtain ⟨timer, sole⟩ := ticking.waits asker bound
  have begins : start.Paced asker first [] :=
    ⟨found, ⟨timer, sole, fun _ member => by cases member⟩, .nil⟩
  have micro : Duration.ofNanos 1000 ≤ first.interval := by
    obtain ⟨setting, listed, interval⟩ := ticking.exists_setting found
    exact (usable setting listed).2 _ interval
  have past := ((setUp.punctual found).follow setUp.orderly (allowed_moves setUp.settled budget)).past
  obtain ⟨early, short⟩ := setUp.early short
  have ended := now_moves_le early budget
  refine (begins.follow setUp.numbered (start.moves budget)).apart.imp_of_mem
    fun {request later} member _ apart => ⟨apart, ?_⟩
  have before : request.2 < Duration.max :=
    Nat.lt_of_le_of_lt (Nat.le_trans (past request member) ended) short
  exact Nat.lt_of_lt_of_le (Duration.lt_add before micro) apart

/-- One node, whose consumer asks once in 10^20 seconds. -/
def rarely : Scenario where
  nodes := [{ name := "a" }]
  consumers := [{ node := "a", under := "/p", frequency := .finite false 6646139978924579 955 }]

theorem rare_frequency_has_no_interval : rarely.check = .ok () ∧
    ∃ setting, rarely.consumers = [setting] ∧ setting.frequency = .ofDecimal false 1 (-20) ∧
      setting.interval? = none := by
  refine ⟨?_, _, rfl, ?_, ?_⟩
  · decide +kernel
  · decide +kernel
  · decide +kernel

theorem accepted_frequencies_are_usable_between_neighbours : neighbours.check = .ok () ∧
    (∀ setting ∈ neighbours.consumers, setting.frequency.IsCanonical) ∧
    ∃ start first, ofScenario neighbours (.scrambled 1) = .ok start ∧ start.consumers = [first] ∧
      first.interval = Duration.ofMillis 100 ∧ ∀ budget,
        (throughout asks first (turnsOf 0 start (start.moves budget))).Pairwise
          fun request later => request.2 + Duration.ofMillis 100 ≤ later.2 := by
  have passed : neighbours.check = .ok () := by decide +kernel
  have canonical : ∀ setting ∈ neighbours.consumers, setting.frequency.IsCanonical := by
    intro setting listed
    rw [List.mem_singleton.mp listed]
    dsimp only
    exact Binary64.isCanonical_ofNat 10
  obtain ⟨each, usable⟩ := accepted_frequencies_are_usable_but_the_least passed canonical
  have interval : ∀ setting ∈ neighbours.consumers,
      setting.interval? = some (Duration.ofMillis 100) := by
    decide +kernel
  have frequent : ∀ setting ∈ neighbours.consumers,
      ¬ setting.frequency.IsAtMost 1 (Binary64.twoTo 64) := by
    intro setting listed least
    have none := (each setting listed).1.mpr least
    rw [interval setting listed] at none
    cases none
  obtain ⟨start, made, intervals, apart⟩ := usable frequent (by decide) (.scrambled 1)
  obtain ⟨first, rest, same, none, isFirst⟩ := List.forall₂_cons_left_iff.mp intervals
  cases List.forall₂_nil_left_iff.mp none
  rw [interval _ List.mem_cons_self] at same
  have same := Option.some.inj same
  refine ⟨passed, canonical, start, first, made, isFirst, same.symm, fun budget => ?_⟩
  rw [same]
  exact (apart budget 0 first (by rw [isFirst]; rfl)).imp fun both => both.1

end Setup

end Simulation

end NamedData
