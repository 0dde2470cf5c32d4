import NamedData.Proofs.TimeSlices
import NamedData.Simulation.Run

namespace NamedData

namespace Consumer

/-- What happens to a consumer. -/
inductive Turn where
  | receive (data : Data) (now : Instant)
  | expire (now : Instant)
  | issue (now : Instant) (nonce : Nonce)

def take (consumer : Consumer) : Turn → Consumer
  | .receive data now => consumer.receive data now
  | .expire now => consumer.expire now
  | .issue now nonce => (consumer.issue now nonce).2

def follow (consumer : Consumer) (turns : List Turn) : Consumer := turns.foldl take consumer

end Consumer

namespace Simulation

/-- The parts that a run is made of. -/
inductive Move where
  /-- What waits on one end of a link sets out. -/
  | sendOff (place : Nat) (linkEnd : LinkEnd)
  /-- A consumer takes the Data that waits for it. -/
  | feed (place : Nat)
  /-- A producer takes the Interests that wait for it, and answers. -/
  | serve (place : Nat)
  /-- The first event that is due happens. -/
  | happen
  /-- All clocks move on. -/
  | advance (time : Instant)
  /-- Every consumer gives up what took too long. -/
  | giveUp (time : Instant)

def perform (simulation : Simulation) : Move → Simulation
  | .sendOff place linkEnd =>
    match simulation.nodes[place]? with
    | none => simulation
    | some node =>
      let (node, timers) := Simulation.sendOff (node, simulation.timers) linkEnd
      { simulation with nodes := simulation.nodes.set place node, timers }
  | .feed place =>
    match simulation.consumers[place]? with
    | none => simulation
    | some consumer =>
      let (consumer, nodes) := collect simulation.now simulation.nodes consumer
      { simulation with consumers := simulation.consumers.set place consumer, nodes }
  | .serve place =>
    match simulation.producers[place]? with
    | none => simulation
    | some producer =>
      let (_, producer, nodes) := Simulation.serve simulation.nodes producer
      { simulation with producers := simulation.producers.set place producer, nodes }
  | .happen =>
    match simulation.timers.popDue? simulation.now with
    | none => simulation
    | some (timer, timers) => { simulation with timers }.handle timer.payload
  | .advance time => { simulation with
      nodes := simulation.nodes.map (·.advanceTo time)
      timers := simulation.timers.advanceTo time }
  | .giveUp time => { simulation with
      consumers := simulation.consumers.map fun consumer => consumer.expire time }

def follow (simulation : Simulation) (moves : List Move) : Simulation :=
  moves.foldl perform simulation

theorem follow_append (simulation : Simulation) (earlier later : List Move) :
    simulation.follow (earlier ++ later) = (simulation.follow earlier).follow later :=
  List.foldl_append

/-- The same simulation with another end. -/
def stoppedAt (simulation : Simulation) (stop : Instant) : Simulation := { simulation with stop }

/-- When a run ends makes no difference to a move. -/
theorem perform_stoppedAt (simulation : Simulation) (stop : Instant) (move : Move) :
    (simulation.stoppedAt stop).perform move = (simulation.perform move).stoppedAt stop := by
  cases move with
  | sendOff place linkEnd =>
    simp only [perform, stoppedAt]
    split <;> rfl
  | feed asker =>
    simp only [perform, stoppedAt]
    split <;> rfl
  | serve answerer =>
    simp only [perform, stoppedAt]
    split <;> rfl
  | happen =>
    have same : (simulation.stoppedAt stop).timers.popDue? (simulation.stoppedAt stop).now =
      simulation.timers.popDue? simulation.now := rfl
    simp only [perform, same]
    cases simulation.timers.popDue? simulation.now with
    | none => rfl
    | some due =>
      cases event : due.1.payload with
      | tick asker =>
        simp only [event, handle, ask, stoppedAt]
        split <;> rfl
      | delivery node face packet =>
        simp only [event]
        rfl
  | advance time => rfl
  | giveUp time => rfl

theorem follow_stoppedAt (simulation : Simulation) (stop : Instant) (moves : List Move) :
    (simulation.stoppedAt stop).follow moves = (simulation.follow moves).stoppedAt stop := by
  induction moves generalizing simulation with
  | nil => rfl
  | cons move rest ih =>
    show ((simulation.stoppedAt stop).perform move).follow rest = _
    rw [perform_stoppedAt]
    exact ih _

/-- The ends of links of nodes, from a place on. -/
def sendOffs (place : Nat) : List Node → List Move
  | [] => []
  | node :: rest => node.linkEnds.map (.sendOff place) ++ sendOffs (place + 1) rest

/-- The part of an exchange that makes for no new packets. -/
def handOutMoves (simulation : Simulation) : List Move :=
  sendOffs 0 simulation.nodes ++ (List.range' 0 simulation.consumers.length).map .feed

/-- What one exchange is made of. -/
def exchangeMoves (simulation : Simulation) : List Move :=
  simulation.handOutMoves ++ (List.range' 0 simulation.producers.length).map .serve

/-- What settling is made of, one exchange after the other. -/
def settleMoves (simulation : Simulation) : List Move :=
  match _exchanged : simulation.exchange with
  | (0, _) => simulation.exchangeMoves
  | (_ + 1, next) => simulation.exchangeMoves ++ next.settleMoves
termination_by waiting simulation.nodes
decreasing_by
  have fewer := waiting_exchange_le simulation
  rw [_exchanged] at fewer
  dsimp only at fewer
  omega

/-- What one step of a run is made of, once it is known what comes first. -/
def movesFrom (simulation : Simulation) (first : Move) : List Move :=
  first :: (simulation.perform first).settleMoves

/-- What comes first in the next step, if there is one. -/
def next? (simulation : Simulation) : Option Move :=
  match simulation.timers.popDue? simulation.now with
  | some _ => some .happen
  | none =>
    match simulation.nextDeadline? with
    | none => none
    | some time => if time ≤ simulation.stop then some (.advance time) else none

def lastMoves (simulation : Simulation) : List Move :=
  simulation.movesFrom (.advance simulation.stop) ++ [.giveUp simulation.stop]

/-- What a run is made of, as far as the budget goes. -/
def moves : Nat → Simulation → List Move
  | 0, _ => []
  | budget + 1, simulation =>
    match simulation.next? with
    | some first => simulation.movesFrom first ++
        moves budget (simulation.follow (simulation.movesFrom first))
    | none => simulation.lastMoves

section Exchange

variable {simulation : Simulation}

theorem follow_sendOff (linkEnds : List LinkEnd) (before : List Node) (node : Node)
    (rest : List Node) (timers : Timers Event) :
    { simulation with nodes := before ++ node :: rest, timers }.follow
        (linkEnds.map (.sendOff before.length)) =
      { simulation with
        nodes := before ++ (linkEnds.foldl Simulation.sendOff (node, timers)).1 :: rest
        timers := (linkEnds.foldl Simulation.sendOff (node, timers)).2 } := by
  induction linkEnds generalizing node timers with
  | nil => rfl
  | cons first others ih =>
    rw [List.map_cons, follow, List.foldl_cons, List.foldl_cons]
    have first : { simulation with nodes := before ++ node :: rest, timers }.perform
        (.sendOff before.length first) = { simulation with
          nodes := before ++ (Simulation.sendOff (node, timers) first).1 :: rest
          timers := (Simulation.sendOff (node, timers) first).2 } := by
      simp only [perform, List.getElem?_append_right (Nat.le_refl _), Nat.sub_self,
        List.getElem?_cons_zero, List.set_append_right _ _ (Nat.le_refl _), List.set_cons_zero]
    rw [first]
    exact ih _ _

theorem follow_sendOffs (before nodes : List Node) (timers : Timers Event) :
    { simulation with nodes := before ++ nodes, timers }.follow (sendOffs before.length nodes) =
      { simulation with
        nodes := before ++ (sendOffAll nodes timers).1
        timers := (sendOffAll nodes timers).2 } := by
  induction nodes generalizing before timers with
  | nil => rfl
  | cons node rest ih =>
    obtain ⟨sent, isSent⟩ : ∃ sent, sent = node.linkEnds.foldl Simulation.sendOff (node, timers) :=
      ⟨_, rfl⟩
    have later := ih (before ++ [sent.1]) sent.2
    rw [List.append_assoc, List.singleton_append, List.length_append, List.length_singleton] at later
    rw [sendOffs, follow_append, follow_sendOff, ← isSent, later, sendOffAll, ← isSent,
      List.append_assoc, List.singleton_append]

theorem follow_feeds (before consumers : List Consumer) (nodes : List Node) :
    { simulation with consumers := before ++ consumers, nodes }.follow
        ((List.range' before.length consumers.length).map .feed) =
      { simulation with
        consumers := before ++ (collectAll simulation.now consumers nodes).1
        nodes := (collectAll simulation.now consumers nodes).2 } := by
  induction consumers generalizing before nodes with
  | nil => rfl
  | cons consumer rest ih =>
    obtain ⟨fed, isFed⟩ : ∃ fed, fed = collect simulation.now nodes consumer := ⟨_, rfl⟩
    have first : { simulation with consumers := before ++ consumer :: rest, nodes }.perform
        (.feed before.length) =
          { simulation with consumers := before ++ fed.1 :: rest, nodes := fed.2 } := by
      simp only [perform, List.getElem?_append_right (Nat.le_refl _), Nat.sub_self,
        List.getElem?_cons_zero, List.set_append_right _ _ (Nat.le_refl _), List.set_cons_zero]
      rw [isFed]
      rfl
    have later := ih (before ++ [fed.1]) fed.2
    rw [List.append_assoc, List.singleton_append, List.length_append, List.length_singleton] at later
    rw [List.length_cons, List.range'_succ, List.map_cons, follow, List.foldl_cons, first]
    refine later.trans ?_
    rw [collectAll, ← isFed, List.append_assoc, List.singleton_append]

theorem follow_serves (before producers : List Producer) (nodes : List Node) :
    { simulation with producers := before ++ producers, nodes }.follow
        ((List.range' before.length producers.length).map .serve) =
      { simulation with
        producers := before ++ (serveAll producers nodes).2.1
        nodes := (serveAll producers nodes).2.2 } := by
  induction producers generalizing before nodes with
  | nil => rfl
  | cons producer rest ih =>
    obtain ⟨served, isServed⟩ : ∃ served, served = Simulation.serve nodes producer := ⟨_, rfl⟩
    have first : { simulation with producers := before ++ producer :: rest, nodes }.perform
        (.serve before.length) =
          { simulation with producers := before ++ served.2.1 :: rest, nodes := served.2.2 } := by
      simp only [perform, List.getElem?_append_right (Nat.le_refl _), Nat.sub_self,
        List.getElem?_cons_zero, List.set_append_right _ _ (Nat.le_refl _), List.set_cons_zero]
      rw [isServed]
    have later := ih (before ++ [served.2.1]) served.2.2
    rw [List.append_assoc, List.singleton_append, List.length_append, List.length_singleton] at later
    rw [List.length_cons, List.range'_succ, List.map_cons, follow, List.foldl_cons, first]
    refine later.trans ?_
    rw [serveAll, ← isServed, List.append_assoc, List.singleton_append]

theorem now_sendOff (state : Node × Timers Event) (linkEnd : LinkEnd) :
    (Simulation.sendOff state linkEnd).2.now = state.2.now := by
  have kept : ∀ (packets : List Packet) (timers : Timers Event),
      (packets.foldl (fun timers packet => (timers.schedule linkEnd.delay
        (.delivery linkEnd.peerNode linkEnd.peerFace packet)).2) timers).now = timers.now := by
    intro packets
    induction packets with
    | nil => exact fun timers => rfl
    | cons packet rest ih => exact fun timers => ih _
  exact kept _ _

theorem now_sendOffAll (nodes : List Node) (timers : Timers Event) :
    (sendOffAll nodes timers).2.now = timers.now := by
  induction nodes generalizing timers with
  | nil => rfl
  | cons node rest ih =>
    have once : ∀ (linkEnds : List LinkEnd) (state : Node × Timers Event),
        (linkEnds.foldl Simulation.sendOff state).2.now = state.2.now := by
      intro linkEnds
      induction linkEnds with
      | nil => exact fun state => rfl
      | cons linkEnd others more => exact fun state => (more _).trans (now_sendOff state linkEnd)
    exact (ih _).trans (once node.linkEnds (node, timers))

theorem follow_handOutMoves (simulation : Simulation) :
    simulation.follow simulation.handOutMoves = { simulation with
      timers := (sendOffAll simulation.nodes simulation.timers).2
      consumers := (collectAll simulation.now simulation.consumers
        (sendOffAll simulation.nodes simulation.timers).1).1
      nodes := (collectAll simulation.now simulation.consumers
        (sendOffAll simulation.nodes simulation.timers).1).2 } := by
  have sent := @follow_sendOffs simulation [] simulation.nodes simulation.timers
  obtain ⟨off, isOff⟩ : ∃ off, off = sendOffAll simulation.nodes simulation.timers := ⟨_, rfl⟩
  have clock : off.2.now = simulation.now := by rw [isOff]; exact now_sendOffAll _ _
  have fed := @follow_feeds { simulation with timers := off.2 } [] simulation.consumers off.1
  rw [← isOff] at sent ⊢
  rw [show now { simulation with timers := off.2 } = simulation.now from clock] at fed
  rw [handOutMoves, follow_append]
  exact (congrArg (fun first => follow first _) sent).trans fed

/-- An exchange is its moves, one after the other. -/
theorem exchange_eq_follow (simulation : Simulation) :
    simulation.exchange.2 = simulation.follow simulation.exchangeMoves := by
  rw [exchangeMoves, follow_append, follow_handOutMoves]
  obtain ⟨off, isOff⟩ : ∃ off, off = sendOffAll simulation.nodes simulation.timers := ⟨_, rfl⟩
  obtain ⟨got, isGot⟩ : ∃ got, got = collectAll simulation.now simulation.consumers off.1 := ⟨_, rfl⟩
  have served := @follow_serves { simulation with timers := off.2, consumers := got.1 } []
    simulation.producers got.2
  rw [← isOff, ← isGot]
  refine Eq.trans ?_ served.symm
  rw [exchange, ← isOff]
  dsimp only
  rw [← isGot]
  rfl

variable {next : Simulation} {count : Nat}

theorem settle_of_still (exchanged : simulation.exchange = (0, next)) :
    simulation.settle = next ∧ simulation.settleMoves = simulation.exchangeMoves := by
  constructor
  · rw [settle]
    split <;> rename_i same <;> cases exchanged.symm.trans same
    rfl
  · rw [settleMoves]
    split <;> rename_i same <;> cases exchanged.symm.trans same
    rfl

theorem settle_of_answered (exchanged : simulation.exchange = (count + 1, next)) :
    simulation.settle = next.settle ∧
      simulation.settleMoves = simulation.exchangeMoves ++ next.settleMoves := by
  constructor
  · rw [settle]
    split <;> rename_i same <;> cases exchanged.symm.trans same
    rfl
  · rw [settleMoves]
    split <;> rename_i same <;> cases exchanged.symm.trans same
    rfl

theorem settle_eq_follow (simulation : Simulation) :
    simulation.settle = simulation.follow simulation.settleMoves := by
  induction simulation using settle.induct with
  | case1 simulation next exchanged =>
    obtain ⟨settled, parts⟩ := settle_of_still exchanged
    rw [settled, parts, ← exchange_eq_follow, exchanged]
  | case2 simulation count next exchanged ih =>
    obtain ⟨settled, parts⟩ := settle_of_answered exchanged
    rw [settled, parts, follow_append, ← exchange_eq_follow, exchanged, ih]

end Exchange

theorem step?_eq_follow (simulation : Simulation) : simulation.step? =
    simulation.next?.map fun first => simulation.follow (simulation.movesFrom first) := by
  unfold step? next?
  cases popped : simulation.timers.popDue? simulation.now with
  | some due =>
    refine congrArg some ((settle_eq_follow _).trans ?_)
    show _ = (simulation.perform .happen).follow _
    simp only [perform, popped]
  | none =>
    dsimp only
    cases deadline : simulation.nextDeadline? with
    | none => rfl
    | some time =>
      dsimp only
      split
      · exact congrArg some (settle_eq_follow _)
      · rfl

theorem conclude_eq_follow (simulation : Simulation) :
    simulation.conclude = simulation.follow simulation.lastMoves := by
  have advanced : simulation.advanceTo simulation.stop =
      simulation.follow (simulation.movesFrom (.advance simulation.stop)) := settle_eq_follow _
  rw [lastMoves, follow_append, ← advanced]
  rfl

/-- A run is its moves, one after the other. -/
theorem run?_eq_follow {budget : Nat} {simulation final : Simulation}
    (ended : simulation.run? budget = some final) :
    final = simulation.follow (simulation.moves budget) := by
  induction budget generalizing simulation with
  | zero => cases ended
  | succ budget ih =>
    rw [run?, step?_eq_follow] at ended
    rw [moves]
    cases comes : simulation.next? with
    | none =>
      rw [comes] at ended
      cases ended
      exact conclude_eq_follow simulation
    | some first =>
      rw [comes] at ended
      rw [follow_append]
      exact ih ended

end Simulation

end NamedData
