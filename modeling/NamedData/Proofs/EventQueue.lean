import NamedData.Proofs.Pumping
import NamedData.Proofs.TimerQueue

namespace NamedData

namespace Timers

variable {α : Type} {timers rest : Timers α} {limit : Instant}

/-- Sets one timer after another. -/
def scheduleAll (timers : Timers α) (events : List (Duration × α)) : Timers α :=
  events.foldl (fun timers event => (timers.schedule event.1 event.2).2) timers

theorem now_scheduleAll (events : List (Duration × α)) :
    (timers.scheduleAll events).now = timers.now := by
  induction events generalizing timers with
  | nil => rfl
  | cons first others ih => exact ih

theorem Numbered.scheduleAll (numbered : timers.Numbered) (events : List (Duration × α)) :
    (timers.scheduleAll events).Numbered := by
  induction events generalizing timers with
  | nil => exact numbered
  | cons first others ih => exact ih (numbered.scheduleAt _ _)

theorem deadline_schedule (delay : Duration) (payload : α) :
    (timers.schedule delay payload).1.deadline = timers.now + delay :=
  Duration.max_add_left _ _

theorem running_scheduleAll {events : List (Duration × α)} {timer : TimerId} {payload : α}
    (running : (timers.scheduleAll events).running[timer]? = some payload) :
    timers.running[timer]? = some payload ∨
      ∃ delay, (delay, payload) ∈ events ∧ timer.deadline = timers.now + delay := by
  induction events generalizing timers with
  | nil => exact Or.inl running
  | cons first others ih =>
    rcases ih running with old | ⟨delay, member, due⟩
    · have set := old
      unfold schedule at set
      rw [running_scheduleAt] at set
      split at set
      · rename_i new
        cases set
        exact Or.inr ⟨first.1, List.mem_cons_self, by rw [new]; exact deadline_schedule _ first.2⟩
      · exact Or.inl set
    · exact Or.inr ⟨delay, List.mem_cons_of_mem _ member, due⟩

/-- A timer that is popped comes before all others. -/
theorem least_of_popDue? {timer : Timer α} (popped : timers.popDue? limit = some (timer, rest))
    {other : TimerId} {payload : α} (running : timers.running[other]? = some payload) :
    (TimerId.order timer.id other).isLE = true := by
  unfold popDue? at popped
  split at popped
  · cases popped
  · rename_i id least
    split at popped
    · obtain ⟨_, _, same⟩ := Option.map_eq_some_iff.mp popped
      cases same
      have member : other ∈ timers.running :=
        Std.ExtTreeMap.mem_iff_isSome_getElem?.mpr (by rw [running]; rfl)
      exact (Std.ExtTreeMap.minKey?_eq_some_iff_mem_and_forall.mp least).2 other member
    · cases popped

theorem nextDeadline?_le {time : Instant} (next : timers.nextDeadline? = some time)
    {timer : TimerId} {payload : α} (running : timers.running[timer]? = some payload) :
    time ≤ timer.deadline := by
  obtain ⟨first, least, rfl⟩ := Option.map_eq_some_iff.mp next
  have member : timer ∈ timers.running :=
    Std.ExtTreeMap.mem_iff_isSome_getElem?.mpr (by rw [running]; rfl)
  exact TimerId.deadline_le
    ((Std.ExtTreeMap.minKey?_eq_some_iff_mem_and_forall.mp least).2 timer member)

theorem deadline_of_popDue? {due : Timer α × Timers α} (popped : timers.popDue? limit = some due) :
    ∃ time, timers.nextDeadline? = some time ∧ time ≤ limit := by
  unfold popDue? at popped
  unfold nextDeadline?
  split at popped
  · cases popped
  · rename_i id least
    split at popped
    · rename_i before
      exact ⟨id.deadline, by rw [least]; rfl, before⟩
    · cases popped

end Timers

namespace Simulation

variable {simulation : Simulation} {place : Nat} {move : Move}

/-- The packets that wait on a face of the node at a place. -/
def queueAt (simulation : Simulation) (place : Nat) (face : FaceId) : List Packet :=
  (simulation.nodes[place]?.map (·.forwarder.outbox.queue face)).getD []

/-- The timers that a move sets. -/
def scheduled (simulation : Simulation) : Move → List (Duration × Event)
  | .sendOff place linkEnd => (simulation.queueAt place linkEnd.face).map fun packet =>
      (linkEnd.delay, .delivery linkEnd.peerNode linkEnd.peerFace packet)
  | .happen =>
    match simulation.timers.popDue? simulation.now with
    | some (⟨_, .tick asker⟩, _) =>
      (simulation.consumers[asker]?.map fun consumer => (consumer.interval, .tick asker)).toList
    | _ => []
  | _ => []

/-- The timers that a move leaves, those apart that it sets. -/
def leftBy (simulation : Simulation) : Move → Timers Event
  | .happen =>
    match simulation.timers.popDue? simulation.now with
    | some (_, rest) => rest
    | none => simulation.timers
  | .advance time => simulation.timers.advanceTo time
  | _ => simulation.timers

theorem timers_perform (move : Move) : (simulation.perform move).timers =
    (simulation.leftBy move).scheduleAll (simulation.scheduled move) := by
  cases move with
  | sendOff place linkEnd =>
    simp only [perform, leftBy, scheduled, queueAt]
    cases simulation.nodes[place]? with
    | none => rfl
    | some node =>
      show List.foldl _ simulation.timers (node.forwarder.outbox.drain linkEnd.face).1 = _
      have all : (node.forwarder.outbox.drain linkEnd.face).1 =
          node.forwarder.outbox.queue linkEnd.face := List.filter_eq_self.mpr fun _ _ => rfl
      rw [all, Timers.scheduleAll, Option.map_some, Option.getD_some, List.foldl_map]
  | feed asker =>
    simp only [perform]
    split <;> rfl
  | serve answerer =>
    simp only [perform]
    split <;> rfl
  | happen =>
    simp only [perform, leftBy, scheduled]
    cases simulation.timers.popDue? simulation.now with
    | none => rfl
    | some due =>
      obtain ⟨⟨id, event⟩, rest⟩ := due
      cases event with
      | tick asker =>
        simp only [handle, ask]
        cases simulation.consumers[asker]? with
        | none => rfl
        | some consumer => rfl
      | delivery node face packet => rfl
  | advance time => rfl
  | giveUp time => rfl

theorem now_leftBy (still : ∀ time, move ≠ .advance time) :
    (simulation.leftBy move).now = simulation.now := by
  cases move with
  | happen =>
    simp only [leftBy]
    split
    · rename_i timer rest popped
      obtain ⟨_, due, isRest⟩ := Timers.popDue?_eq_some popped
      rw [isRest]
      refine Duration.ext ?_
      rw [Duration.nanos_max]
      exact Nat.max_eq_left due
    · rfl
  | advance time => exact absurd rfl (still time)
  | _ => rfl

theorem now_perform (still : ∀ time, move ≠ .advance time) :
    (simulation.perform move).now = simulation.now := by
  rw [now, timers_perform, Timers.now_scheduleAll, now_leftBy still]

theorem numbered_leftBy (numbered : simulation.timers.Numbered) (move : Move) :
    (simulation.leftBy move).Numbered := by
  cases move with
  | happen =>
    simp only [leftBy]
    split
    · rename_i popped
      rw [(Timers.popDue?_eq_some popped).2.2]
      exact numbered.cancel _
    · exact numbered
  | _ => exact numbered

theorem running_leftBy {timer : TimerId} {event : Event}
    (running : (simulation.leftBy move).running[timer]? = some event) :
    simulation.timers.running[timer]? = some event := by
  cases move with
  | happen =>
    simp only [leftBy] at running
    split at running
    · rename_i popped
      exact ((Timers.runs_popped popped timer).mp running).2
    · exact running
  | _ => exact running

/-- A deadline is no later than another, if there is that one. -/
def NoLater (next other : Option Instant) : Prop :=
  ∀ time, other = some time → ∃ soon, next = some soon ∧ soon ≤ time

theorem NoLater.refl (next : Option Instant) : NoLater next next :=
  fun time same => ⟨time, same, Nat.le_refl _⟩

theorem NoLater.trans {next middle other : Option Instant} (sooner : NoLater next middle)
    (later : NoLater middle other) : NoLater next other := by
  intro time same
  obtain ⟨between, isBetween, before⟩ := later time same
  obtain ⟨soon, isSoon, before'⟩ := sooner between isBetween
  exact ⟨soon, isSoon, Nat.le_trans before' before⟩

theorem noLater_earlier (first other : Option Instant) :
    NoLater (earlier first other) first ∧ NoLater (earlier first other) other := by
  cases first with
  | none => exact ⟨nofun, .refl _⟩
  | some first =>
    cases other with
    | none => exact ⟨.refl _, nofun⟩
    | some other =>
      refine ⟨fun time same => ?_, fun time same => ?_⟩ <;> cases same
      · exact ⟨min first other, rfl, Std.min_le_left⟩
      · exact ⟨min first other, rfl, Std.min_le_right⟩

/-- The next deadline is no later than any of those it was found among. -/
theorem noLater_foldl (nodes : List Node) (first : Option Instant) :
    NoLater (nodes.foldl (fun next node => earlier next node.forwarder.nextDeadline?) first) first ∧
      ∀ node ∈ nodes, NoLater
        (nodes.foldl (fun next node => earlier next node.forwarder.nextDeadline?) first)
        node.forwarder.nextDeadline? := by
  induction nodes generalizing first with
  | nil => exact ⟨.refl _, nofun⟩
  | cons node rest ih =>
    obtain ⟨sooner, each⟩ := ih (earlier first node.forwarder.nextDeadline?)
    obtain ⟨before, own⟩ := noLater_earlier first node.forwarder.nextDeadline?
    refine ⟨sooner.trans before, fun other member => ?_⟩
    rcases List.mem_cons.mp member with rfl | later
    · exact sooner.trans own
    · exact each other later

variable {timer : TimerId} {event : Event}

/-- Nothing is due before the next deadline. -/
theorem exists_nextDeadline (running : simulation.timers.running[timer]? = some event) :
    ∃ time, simulation.nextDeadline? = some time ∧ time ≤ timer.deadline := by
  cases own : simulation.timers.nextDeadline? with
  | none =>
    rw [Timers.nextDeadline?_eq_none.mp own] at running
    cases running
  | some early =>
    obtain ⟨time, next, before⟩ :=
      (noLater_foldl simulation.nodes simulation.timers.nextDeadline?).1 early own
    exact ⟨time, next, Nat.le_trans before (Timers.nextDeadline?_le own running)⟩

theorem next?_eq_none : simulation.next? = none ↔
    simulation.timers.popDue? simulation.now = none ∧
      ∀ time, simulation.nextDeadline? = some time → simulation.stop < time := by
  unfold next?
  cases simulation.timers.popDue? simulation.now with
  | some due => simp
  | none =>
    cases simulation.nextDeadline? with
    | none => simp
    | some time =>
      have past : ¬ time ≤ simulation.stop ↔ simulation.stop < time := Nat.not_le
      simp [past]

/-- When a run is over, whatever is still to happen is due later. -/
theorem later_of_next? (last : simulation.next? = none)
    (running : simulation.timers.running[timer]? = some event) :
    simulation.stop < timer.deadline := by
  obtain ⟨time, next, before⟩ := exists_nextDeadline running
  exact Nat.lt_of_lt_of_le ((next?_eq_none.mp last).2 time next) before

/-- When a run is over, no timer of a forwarder is due by its end. -/
theorem idle_of_next? (last : simulation.next? = none) {node : Node} (member : node ∈ simulation.nodes) :
    node.forwarder.timers.popDue? simulation.stop = none := by
  cases popped : node.forwarder.timers.popDue? simulation.stop with
  | none => rfl
  | some due =>
    obtain ⟨own, isOwn, before⟩ := Timers.deadline_of_popDue? popped
    obtain ⟨time, next, sooner⟩ :=
      (noLater_foldl simulation.nodes simulation.timers.nextDeadline?).2 node member own isOwn
    have past := (next?_eq_none.mp last).2 time next
    exact absurd (Nat.le_trans sooner before) (Nat.not_le.mpr past)

end Simulation

end NamedData
