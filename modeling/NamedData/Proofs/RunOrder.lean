import NamedData.Proofs.EventQueue
import NamedData.Proofs.Steps

namespace NamedData

namespace Simulation

variable {simulation : Simulation} {place : Nat} {move : Move} {timer : TimerId} {event : Event}

/-- A move that a run may make. -/
def Allowed (simulation : Simulation) : Move → Prop
  | .sendOff place linkEnd => linkEnd ∈ simulation.layout.endsAt place
  | .advance time => simulation.Settled ∧ ∀ (timer : TimerId) (event : Event),
      simulation.timers.running[timer]? = some event → time ≤ timer.deadline
  | _ => True

theorem Pumps.allowed (pumps : Pumps simulation.layout move) : simulation.Allowed move := by
  cases pumps with
  | sendOff member => exact member
  | feed asker => trivial
  | serve answerer => trivial

theorem allowed_settleMoves (simulation : Simulation) :
    Along Allowed simulation simulation.settleMoves :=
  along_of_mem fun here same move member => by
    have pumps := pumps_settleMoves member
    rw [← same] at pumps
    exact pumps.allowed

theorem allowed_next? (settled : simulation.Settled) {first : Move}
    (next : simulation.next? = some first) : simulation.Allowed first := by
  unfold next? at next
  split at next
  · cases next
    trivial
  · split at next
    · cases next
    · rename_i time deadline
      split at next
      · cases next
        refine ⟨settled, fun timer event running => ?_⟩
        obtain ⟨soonest, isNext, before⟩ := exists_nextDeadline running
        cases deadline.symm.trans isNext
        exact before
      · cases next

theorem allowed_movesFrom {first : Move} (allowed : simulation.Allowed first) :
    Along Allowed simulation (simulation.movesFrom first) :=
  ⟨allowed, allowed_settleMoves (simulation.perform first)⟩

theorem allowed_lastMoves (settled : simulation.Settled) (last : simulation.next? = none) :
    Along Allowed simulation simulation.lastMoves := by
  refine along_append.mpr ⟨allowed_movesFrom ⟨settled, fun timer event running => ?_⟩, trivial, trivial⟩
  exact Nat.le_of_lt (later_of_next? last running)

/-- A run makes only moves that it may make: packets are where they belong whenever
the clocks move on, and the clocks never move past what is still to happen. -/
theorem allowed_moves (settled : simulation.Settled) (budget : Nat) :
    Along Allowed simulation (simulation.moves budget) := by
  induction budget generalizing simulation with
  | zero => trivial
  | succ budget ih =>
    rw [moves]
    split
    · rename_i first next
      refine along_append.mpr ⟨allowed_movesFrom (allowed_next? settled next), ih ?_⟩
      exact settled_settle (simulation.perform first)
    · rename_i last
      exact allowed_lastMoves settled last

/-- What always holds of a simulation that is set up properly: each forwarder is in
order and has the time of the simulation, nothing that is still to happen lies in the
past, and packets under way go to ends of links. -/
structure Orderly (simulation : Simulation) : Prop where
  proper : simulation.layout.Proper
  sound : ∀ {place : Nat} {node : Node}, simulation.nodes[place]? = some node →
    Forwarder.Sound node.forwarder
  clock : ∀ {place : Nat} {node : Node}, simulation.nodes[place]? = some node →
    node.forwarder.now = simulation.now
  numbered : simulation.timers.Numbered
  ahead : ∀ {timer : TimerId} {event : Event},
    simulation.timers.running[timer]? = some event → simulation.now ≤ timer.deadline
  bound : ∀ {timer : TimerId} {node : Nat} {face : FaceId} {packet : Packet},
    simulation.timers.running[timer]? = some (.delivery node face packet) →
    ∃ linkEnd ∈ simulation.layout.endsAt node, linkEnd.face = face

theorem Orderly.ahead_perform (orderly : simulation.Orderly) (allowed : simulation.Allowed move)
    (running : (simulation.perform move).timers.running[timer]? = some event) :
    (simulation.perform move).now ≤ timer.deadline := by
  rw [timers_perform] at running
  rw [now, timers_perform, Timers.now_scheduleAll]
  rcases Timers.running_scheduleAll running with old | ⟨delay, _, due⟩
  · have kept := orderly.ahead (running_leftBy old)
    rcases move.still_or_advances with still | ⟨time, rfl⟩
    · rw [now_leftBy still]
      exact kept
    · have timely := allowed.2 timer event (running_leftBy old)
      show max simulation.now time ≤ timer.deadline
      exact Std.max_le_iff.mpr ⟨kept, timely⟩
  · rw [due]
    exact Duration.le_add _ _

theorem scheduled_delivery {delay : Duration} {node : Nat} {face : FaceId} {packet : Packet}
    (set : (delay, Event.delivery node face packet) ∈ simulation.scheduled move) :
    ∃ place linkEnd, move = .sendOff place linkEnd ∧ delay = linkEnd.delay ∧
      node = linkEnd.peerNode ∧ face = linkEnd.peerFace ∧
      packet ∈ simulation.queueAt place linkEnd.face := by
  cases move with
  | sendOff place linkEnd =>
    obtain ⟨waiting, member, same⟩ := List.mem_map.mp set
    cases same
    exact ⟨place, linkEnd, rfl, rfl, rfl, rfl, member⟩
  | happen =>
    simp only [scheduled] at set
    split at set
    · rename_i asker _ _
      cases simulation.consumers[asker]? <;> simp at set
    · cases set
  | feed asker => cases set
  | serve answerer => cases set
  | advance time => cases set
  | giveUp time => cases set

theorem Orderly.bound_perform (orderly : simulation.Orderly) (allowed : simulation.Allowed move)
    {node : Nat} {face : FaceId} {packet : Packet}
    (running : (simulation.perform move).timers.running[timer]? = some (.delivery node face packet)) :
    ∃ linkEnd ∈ simulation.layout.endsAt node, linkEnd.face = face := by
  rw [timers_perform] at running
  rcases Timers.running_scheduleAll running with old | ⟨delay, set, _⟩
  · exact orderly.bound (running_leftBy old)
  · obtain ⟨place, linkEnd, rfl, _, rfl, rfl, _⟩ := scheduled_delivery set
    exact ⟨_, orderly.proper.mated allowed, rfl⟩

/-- What happens on a face keeps the clock. -/
theorem now_act_on {forwarder : Forwarder} (sound : forwarder.Sound) {action : Action}
    {face : FaceId} (on : On face action) : (forwarder.act action).now = forwarder.now := by
  have same := (Forwarder.Steps.fixed (Forwarder.act_steps sound.matched.filed action)).2
  cases on <;> exact same

theorem now_run_on {forwarder : Forwarder} (sound : forwarder.Sound) {actions : List Action}
    (on : ∀ action ∈ actions, ∃ face, On face action) :
    (forwarder.run actions).now = forwarder.now := by
  induction actions generalizing forwarder with
  | nil => rfl
  | cons action rest ih =>
    obtain ⟨face, here⟩ := on action List.mem_cons_self
    have later := ih (sound.act action) fun action later => on action (List.mem_cons_of_mem _ later)
    exact later.trans (now_act_on sound here)

theorem Orderly.clock_perform (orderly : simulation.Orderly) {node : Node}
    (found : (simulation.perform move).nodes[place]? = some node) :
    node.forwarder.now = (simulation.perform move).now := by
  rw [nodes_perform] at found
  obtain ⟨old, atPlace, rfl⟩ := Option.map_eq_some_iff.mp found
  rcases move.still_or_advances with still | ⟨time, rfl⟩
  · rw [now_perform still, ← orderly.clock atPlace]
    refine now_run_on (orderly.sound atPlace) fun action called => ?_
    obtain ⟨face, causes⟩ := causes_of_calls still called
    exact ⟨face, causes.on⟩
  · simp only [calls, atPlace, ← Forwarder.advanceTo_eq_run_size, Forwarder.now_advanceTo,
      orderly.clock atPlace]
    rfl

theorem Orderly.perform (orderly : simulation.Orderly) (allowed : simulation.Allowed move) :
    (simulation.perform move).Orderly where
  proper := by rw [layout_perform]; exact orderly.proper
  sound found := by
    rw [nodes_perform] at found
    obtain ⟨old, atPlace, rfl⟩ := Option.map_eq_some_iff.mp found
    exact (orderly.sound atPlace).run _
  clock := orderly.clock_perform
  numbered := by
    rw [timers_perform]
    exact (numbered_leftBy orderly.numbered move).scheduleAll _
  ahead := orderly.ahead_perform allowed
  bound := by rw [layout_perform]; exact orderly.bound_perform allowed

theorem orderly_follow (orderly : simulation.Orderly) {moves : List Move}
    (allowed : Along Allowed simulation moves) : (simulation.follow moves).Orderly := by
  induction moves generalizing simulation with
  | nil => exact orderly
  | cons move rest ih => exact ih (orderly.perform allowed.1) allowed.2

theorem Settled.gathers (settled : simulation.Settled) (gathers : simulation.Gathers move) :
    (simulation.perform move).Settled := by
  refine ⟨fun {place linkEnd} member waits => ?_, fun {place face} member waits => ?_,
    fun {place face} member waits => ?_⟩ <;> rw [layout_perform] at member
  · exact settled.links member (gathers.waits waits)
  · exact settled.askers member (gathers.waits waits)
  · exact settled.answerers member (gathers.waits waits)

theorem Settled.requestsTo_eq_nil (settled : simulation.Settled) {producer : Producer}
    (listed : (producer.node, producer.face) ∈ simulation.layout.answerers) :
    requestsTo simulation.nodes producer = [] := by
  refine List.eq_nil_iff_forall_not_mem.mpr fun interest requested => ?_
  obtain ⟨node, found, waits⟩ := mem_requestsTo requested
  exact settled.answerers listed ⟨node, found, .interest interest, waits, rfl⟩

theorem Settled.repliesTo_eq_nil (settled : simulation.Settled) {consumer : Consumer}
    (listed : (consumer.node, consumer.face) ∈ simulation.layout.askers) :
    repliesTo simulation.nodes consumer = [] := by
  refine List.eq_nil_iff_forall_not_mem.mpr fun data replied => ?_
  obtain ⟨node, found, waits⟩ := mem_repliesTo replied
  exact settled.askers listed ⟨node, found, .data data, waits, rfl⟩

theorem Settled.queueAt_eq_nil (settled : simulation.Settled) {linkEnd : LinkEnd}
    (member : linkEnd ∈ simulation.layout.endsAt place) :
    simulation.queueAt place linkEnd.face = [] := by
  cases found : simulation.nodes[place]? with
  | none =>
    rw [queueAt, found]
    rfl
  | some node =>
    rw [queueAt, found, Option.map_some, Option.getD_some]
    refine List.eq_nil_iff_forall_not_mem.mpr fun packet waits => ?_
    exact settled.links member ⟨node, found, packet, Outbox.mem_queue.mp waits, rfl⟩

/-- Where nothing is left to move, an exchange only looks into empty queues. -/
theorem Settled.gathersPump (settled : simulation.Settled) (pumps : Pumps simulation.layout move) :
    simulation.Gathers move := by
  cases pumps with
  | sendOff member => exact gathers_sendOff _ _
  | feed asker => exact gathers_feed asker
  | serve answerer =>
    cases found : simulation.producers[answerer]? with
    | none =>
      intro place action called
      simp only [calls, found] at called
      cases called
    | some producer =>
      refine gathers_serve found ?_
      rw [settled.requestsTo_eq_nil (List.mem_map_of_mem (List.mem_of_getElem? found))]
      rfl

theorem Settled.pump (settled : simulation.Settled) (pumps : Pumps simulation.layout move) :
    (simulation.perform move).Settled ∧ (simulation.perform move).timers = simulation.timers := by
  refine ⟨settled.gathers (settled.gathersPump pumps), ?_⟩
  rw [timers_perform]
  cases pumps with
  | sendOff member =>
    rw [scheduled, settled.queueAt_eq_nil member]
    rfl
  | feed asker => rfl
  | serve answerer => rfl

theorem Settled.pumpAll (settled : simulation.Settled) {moves : List Move}
    (pumps : ∀ move ∈ moves, Pumps simulation.layout move) :
    (simulation.follow moves).timers = simulation.timers := by
  induction moves generalizing simulation with
  | nil => rfl
  | cons move rest ih =>
    obtain ⟨settled', same⟩ := settled.pump (pumps move List.mem_cons_self)
    refine (ih settled' fun later member => ?_).trans same
    rw [layout_perform]
    exact pumps later (List.mem_cons_of_mem _ member)

theorem outbox_advanceTo (forwarder : Forwarder) (time : Instant) :
    (forwarder.advanceTo time).outbox = forwarder.outbox := by
  have fired : ∀ count, (forwarder.run (List.replicate count (.fireNext time))).outbox =
      forwarder.outbox := by
    intro count
    induction count generalizing forwarder with
    | zero => rfl
    | succ count ih =>
      rw [List.replicate_succ]
      exact (ih (forwarder.act (.fireNext time))).trans (Forwarder.outbox_fireNext time)
  obtain ⟨count, _, same⟩ := forwarder.advanceTo_eq_run time
  rw [same, Forwarder.run_append]
  refine Eq.trans ?_ (fired count)
  show (Forwarder.act _ (.passTime time)).outbox = _
  simp only [Forwarder.act]
  split <;> rfl

/-- Nothing is handed to a face while the clocks move on. -/
theorem Settled.advance (settled : simulation.Settled) (time : Instant) :
    (simulation.perform (.advance time)).Settled := by
  have waits {place : Nat} {face : FaceId} {wanted : Packet → Bool}
      (later : (simulation.perform (.advance time)).Waits place face wanted) :
      simulation.Waits place face wanted := by
    obtain ⟨node, found, packet, sent, isWanted⟩ := later
    simp only [Simulation.perform, List.getElem?_map] at found
    obtain ⟨old, atPlace, rfl⟩ := Option.map_eq_some_iff.mp found
    have same : (old.advanceTo time).forwarder.outbox = old.forwarder.outbox :=
      outbox_advanceTo old.forwarder time
    rw [same] at sent
    exact ⟨old, atPlace, packet, sent, isWanted⟩
  refine ⟨fun {place linkEnd} member later => ?_, fun {place face} member later => ?_,
    fun {place face} member later => ?_⟩ <;> rw [layout_perform] at member
  · exact settled.links member (waits later)
  · exact settled.askers member (waits later)
  · exact settled.answerers member (waits later)

/-- The end of a run leaves what is still to happen. -/
theorem Settled.running_lastMoves (settled : simulation.Settled) :
    (simulation.follow simulation.lastMoves).timers.running = simulation.timers.running := by
  rw [lastMoves, follow_append]
  show ((simulation.perform (.advance simulation.stop)).follow _).timers.running = _
  rw [(settled.advance simulation.stop).pumpAll fun move member => pumps_settleMoves member]
  rfl

theorem settled_movesFrom (first : Move) :
    (simulation.follow (simulation.movesFrom first)).Settled :=
  settled_settle (simulation.perform first)

theorem settled_moves (settled : simulation.Settled) (budget : Nat) :
    (simulation.follow (simulation.moves budget)).Settled := by
  induction budget generalizing simulation with
  | zero => exact settled
  | succ budget ih =>
    rw [moves]
    split
    · rw [follow_append]
      exact ih (settled_movesFrom _)
    · rw [lastMoves, follow_append]
      have last := @settled_movesFrom simulation (.advance simulation.stop)
      refine @Settled.gathers _ (.giveUp simulation.stop) last fun place action called => ?_
      cases called

theorem stop_perform (move : Move) : (simulation.perform move).stop = simulation.stop := by
  have same := congrArg Simulation.stop (perform_stoppedAt simulation simulation.stop move)
  exact same

theorem stop_follow (moves : List Move) : (simulation.follow moves).stop = simulation.stop := by
  induction moves generalizing simulation with
  | nil => rfl
  | cons move rest ih => exact ih.trans (stop_perform move)

/-- What is still to happen when a run is over is due after its end. -/
theorem later_of_run? (settled : simulation.Settled) {budget : Nat}
    (ended : (simulation.run? budget).isSome = true)
    (running : (simulation.follow (simulation.moves budget)).timers.running[timer]? = some event) :
    simulation.stop < timer.deadline := by
  induction budget generalizing simulation with
  | zero => cases ended
  | succ budget ih =>
    rw [run?, step?_eq_follow] at ended
    rw [moves] at running
    cases next : simulation.next? with
    | none =>
      rw [next] at running
      rw [settled.running_lastMoves] at running
      exact later_of_next? next running
    | some first =>
      rw [next] at ended running
      rw [follow_append] at running
      have later := ih (settled_movesFrom first) ended running
      rw [stop_follow] at later
      exact later

end Simulation

end NamedData
