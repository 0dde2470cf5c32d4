import NamedData.Proofs.Moves

namespace NamedData

/-- The answers of a producer, one for each Interest that is under its prefix. -/
def Producer.replies (producer : Producer) (interests : List Interest) : List Data :=
  interests.filterMap fun interest => (producer.respond? interest).map (·.1)

namespace Forwarder

variable {forwarder : Forwarder}

theorem act_fireNext_of_idle {limit : Instant} (idle : forwarder.timers.popDue? limit = none) :
    forwarder.act (.fireNext limit) = forwarder := by
  simp only [act, idle]

theorem run_fireNext_of_idle {limit : Instant} (idle : forwarder.timers.popDue? limit = none)
    (count : Nat) : forwarder.run (List.replicate count (.fireNext limit)) = forwarder := by
  induction count with
  | zero => rfl
  | succ count ih =>
    rw [List.replicate_succ, run, List.foldl_cons, act_fireNext_of_idle idle]
    exact ih

/-- As many timers as are running are tried, and those that are not due do nothing. -/
theorem advanceTo_eq_run_size (time : Instant) : forwarder.advanceTo time =
    forwarder.run (List.replicate forwarder.timers.running.size (.fireNext time) ++
      [.passTime time]) := by
  obtain ⟨⟨count, bound, fired⟩, idle⟩ := forwarder.fireDue_eq_run time
  have all : forwarder.run (List.replicate forwarder.timers.running.size (.fireNext time)) =
      forwarder.fireDue time := by
    rw [← Nat.add_sub_cancel' bound, ← List.replicate_append_replicate, run_append, ← fired]
    exact run_fireNext_of_idle idle _
  rw [run_append, all]
  simp only [run, List.foldl_cons, List.foldl_nil, act, idle, Option.isSome_none, advanceTo,
    Bool.false_eq_true, if_false]

end Forwarder

namespace Simulation

variable {simulation : Simulation}

/-- A packet reaches a face. -/
def arrival (face : FaceId) : Packet → Action
  | .interest interest => .receiveInterest face interest
  | .data data => .receiveData face data

/-- The Interests that wait for a producer. -/
def requestsTo (nodes : List Node) (producer : Producer) : List Interest :=
  (nodes[producer.node]?.map fun node =>
    (node.forwarder.outbox.takeInterests producer.face).1).getD []

/-- The Data that waits for a consumer. -/
def repliesTo (nodes : List Node) (consumer : Consumer) : List Data :=
  (nodes[consumer.node]?.map fun node =>
    (node.forwarder.outbox.takeData consumer.face).1).getD []

/-- What a consumer asks for when it has its turn. -/
def request (simulation : Simulation) (consumer : Consumer) : Interest :=
  ((consumer.expire simulation.now).issue simulation.now simulation.nonces.next.1).1

/-- What an event does to the forwarder at a place. -/
def eventCalls (simulation : Simulation) (place : Nat) : Event → List Action
  | .tick asker =>
    match simulation.consumers[asker]? with
    | none => []
    | some consumer =>
      if consumer.node = place then
        [.receiveInterest consumer.face (simulation.request consumer)]
      else []
  | .delivery node face packet => if node = place then [arrival face packet] else []

/-- What a move does to the forwarder at a place. -/
def calls (simulation : Simulation) (place : Nat) : Move → List Action
  | .sendOff other linkEnd =>
    if other = place then [.collect linkEnd.face fun _ => true] else []
  | .feed asker =>
    match simulation.consumers[asker]? with
    | none => []
    | some consumer =>
      if consumer.node = place then [.collect consumer.face (·.isData)] else []
  | .serve answerer =>
    match simulation.producers[answerer]? with
    | none => []
    | some producer =>
      if producer.node = place then
        .collect producer.face (·.isInterest) ::
          (producer.replies (requestsTo simulation.nodes producer)).map (.receiveData producer.face)
      else []
  | .happen =>
    match simulation.timers.popDue? simulation.now with
    | none => []
    | some (timer, timers) => { simulation with timers }.eventCalls place timer.payload
  | .advance time =>
    match simulation.nodes[place]? with
    | none => []
    | some node =>
      List.replicate node.forwarder.timers.running.size (.fireNext time) ++ [.passTime time]
  | .giveUp _ => []

/-- What an event does to the consumer at a place. -/
def eventTurns (simulation : Simulation) (place : Nat) : Event → List Consumer.Turn
  | .tick asker =>
    if asker = place then
      [.expire simulation.now, .issue simulation.now simulation.nonces.next.1]
    else []
  | .delivery _ _ _ => []

/-- What a move does to the consumer at a place. -/
def turns (simulation : Simulation) (place : Nat) : Move → List Consumer.Turn
  | .feed asker =>
    match simulation.consumers[asker]? with
    | none => []
    | some consumer =>
      if asker = place then
        (repliesTo simulation.nodes consumer).map (.receive · simulation.now)
      else []
  | .happen =>
    match simulation.timers.popDue? simulation.now with
    | none => []
    | some (timer, timers) => { simulation with timers }.eventTurns place timer.payload
  | .giveUp time => [.expire time]
  | _ => []

/-- How many Interests the producer at a place answers in a move. -/
def replied (simulation : Simulation) (place : Nat) : Move → Nat
  | .serve answerer =>
    match simulation.producers[answerer]? with
    | none => 0
    | some producer =>
      if answerer = place then (producer.replies (requestsTo simulation.nodes producer)).length else 0
  | _ => 0

theorem answer_eq (interests : List Interest) (producer : Producer) (forwarder : Forwarder) :
    answer interests producer forwarder = ((producer.replies interests).length,
      { producer with served := producer.served + (producer.replies interests).length },
      forwarder.run ((producer.replies interests).map (.receiveData producer.face))) := by
  induction interests generalizing producer forwarder with
  | nil => rfl
  | cons interest rest ih =>
    unfold answer
    split
    · rename_i unanswered
      rw [ih, Producer.replies, Producer.replies, List.filterMap_cons, unanswered]
      rfl
    · rename_i data served answered
      have isServed : served = { producer with served := producer.served + 1 } ∧
          producer.respond? interest = some (data, served) := by
        refine ⟨?_, answered⟩
        unfold Producer.respond? at answered
        split at answered
        · cases answered
          rfl
        · cases answered
      have same : served.replies rest = producer.replies rest := by
        rw [isServed.1]
        refine congrArg (rest.filterMap ·) (funext fun interest => ?_)
        unfold Producer.respond?
        dsimp only
        split <;> rfl
      have more : producer.replies (interest :: rest) = data :: producer.replies rest := by
        rw [Producer.replies, List.filterMap_cons, answered]
        rfl
      rw [ih, same, more, isServed.1]
      simp only [List.length_cons, List.map_cons, Nat.add_assoc, Nat.add_comm 1]
      rfl

theorem getElem?_run_nil (nodes : List Node) (place : Nat) : nodes[place]? =
    nodes[place]?.map fun node => { node with forwarder := node.forwarder.run [] } :=
  Option.map_id'.symm

theorem getElem?_run_of_none {nodes : List Node} {other : Nat} (missing : nodes[other]? = none)
    (actions : List Action) (place : Nat) : nodes[place]? = nodes[place]?.map fun node =>
      { node with forwarder := node.forwarder.run (if other = place then actions else []) } := by
  by_cases here : other = place
  · rw [← here, missing]
    rfl
  · rw [if_neg here]
    exact getElem?_run_nil nodes place

theorem getElem?_set_run {nodes : List Node} {other : Nat} {node : Node}
    (atPlace : nodes[other]? = some node) (actions : List Action) (place : Nat) :
    (nodes.set other { node with forwarder := node.forwarder.run actions })[place]? =
      nodes[place]?.map fun node => { node with
        forwarder := node.forwarder.run (if other = place then actions else []) } := by
  rw [List.getElem?_set]
  by_cases here : other = place
  · subst here
    rw [if_pos rfl, atPlace, if_pos (List.getElem?_eq_some_iff.mp atPlace).1, Option.map_some,
      if_pos rfl]
  · simp only [if_neg here]
    exact getElem?_run_nil nodes place

theorem getElem?_updateNode (other : Nat) (actions : List Action) (place : Nat) :
    (simulation.updateNode other (·.run actions)).nodes[place]? =
      simulation.nodes[place]?.map fun node => { node with
        forwarder := node.forwarder.run (if other = place then actions else []) } := by
  rw [updateNode, List.getElem?_modify]
  refine Option.map_congr fun node _ => ?_
  split <;> rfl

theorem nodes_handle (event : Event) (place : Nat) : (simulation.handle event).nodes[place]? =
    simulation.nodes[place]?.map fun node =>
      { node with forwarder := node.forwarder.run (simulation.eventCalls place event) } := by
  cases event with
  | tick asker =>
    simp only [handle, ask, eventCalls]
    cases simulation.consumers[asker]? with
    | none => exact getElem?_run_nil _ _
    | some consumer => exact getElem?_updateNode consumer.node [.receiveInterest consumer.face _] place
  | delivery other face packet =>
    have same : simulation.handle (.delivery other face packet) =
        simulation.updateNode other (·.run [arrival face packet]) := by
      cases packet <;> rfl
    rw [same, getElem?_updateNode]
    rfl

/-- A move changes the nodes by what it does to their forwarders, and in no other way. -/
theorem nodes_perform (move : Move) (place : Nat) : (simulation.perform move).nodes[place]? =
    simulation.nodes[place]?.map fun node =>
      { node with forwarder := node.forwarder.run (simulation.calls place move) } := by
  have still := getElem?_run_nil simulation.nodes place
  cases move with
  | sendOff other linkEnd =>
    simp only [perform, calls]
    cases atPlace : simulation.nodes[other]? with
    | none => exact getElem?_run_of_none atPlace _ _
    | some node => exact getElem?_set_run atPlace [.collect linkEnd.face fun _ => true] place
  | feed asker =>
    simp only [perform, calls]
    cases simulation.consumers[asker]? with
    | none => exact still
    | some consumer =>
      simp only [collect]
      cases atPlace : simulation.nodes[consumer.node]? with
      | none => exact getElem?_run_of_none atPlace _ _
      | some node => exact getElem?_set_run atPlace [.collect consumer.face (·.isData)] place
  | serve answerer =>
    simp only [perform, calls]
    cases simulation.producers[answerer]? with
    | none => exact still
    | some producer =>
      simp only [Simulation.serve]
      cases atPlace : simulation.nodes[producer.node]? with
      | none => exact getElem?_run_of_none atPlace _ _
      | some node =>
        have requests : requestsTo simulation.nodes producer =
            (node.forwarder.outbox.takeInterests producer.face).1 := by
          rw [requestsTo, atPlace]
          rfl
        simp only [answer_eq, requests]
        exact getElem?_set_run atPlace (.collect producer.face (·.isInterest) :: _) place
  | happen =>
    simp only [perform, calls]
    cases simulation.timers.popDue? simulation.now with
    | none => exact still
    | some due => exact nodes_handle due.1.payload place
  | advance time =>
    simp only [perform, calls, List.getElem?_map]
    cases simulation.nodes[place]? with
    | none => rfl
    | some node =>
      show some { node with forwarder := node.forwarder.advanceTo time } = _
      rw [Forwarder.advanceTo_eq_run_size]
      rfl
  | giveUp time => exact still

theorem receiveAll_eq (replies : List Data) (now : Instant) (consumer : Consumer) :
    replies.foldl (fun consumer data => consumer.receive data now) consumer =
      consumer.follow (replies.map (.receive · now)) := by
  rw [Consumer.follow, List.foldl_map]
  rfl

theorem getElem?_set_turns {consumers : List Consumer} {other : Nat} {consumer : Consumer}
    (atPlace : consumers[other]? = some consumer) (turns : List Consumer.Turn) (place : Nat) :
    (consumers.set other (consumer.follow turns))[place]? =
      consumers[place]?.map (·.follow (if other = place then turns else [])) := by
  rw [List.getElem?_set]
  by_cases here : other = place
  · subst here
    rw [if_pos rfl, atPlace, if_pos (List.getElem?_eq_some_iff.mp atPlace).1, Option.map_some,
      if_pos rfl]
  · simp only [if_neg here]
    exact Option.map_id'.symm

theorem consumers_perform (move : Move) (place : Nat) : (simulation.perform move).consumers[place]? =
    simulation.consumers[place]?.map (·.follow (simulation.turns place move)) := by
  have still : simulation.consumers[place]? = simulation.consumers[place]?.map (·.follow []) :=
    Option.map_id'.symm
  cases move with
  | sendOff other linkEnd =>
    simp only [perform]
    split <;> exact still
  | feed asker =>
    simp only [perform, turns]
    cases atPlace : simulation.consumers[asker]? with
    | none => exact still
    | some consumer =>
      have fed : (collect simulation.now simulation.nodes consumer).1 = consumer.follow
          ((repliesTo simulation.nodes consumer).map (.receive · simulation.now)) := by
        rw [← receiveAll_eq, repliesTo]
        simp only [collect]
        cases simulation.nodes[consumer.node]? <;> rfl
      simp only [fed]
      exact getElem?_set_turns atPlace _ place
  | serve answerer =>
    simp only [perform]
    split <;> exact still
  | happen =>
    simp only [perform, turns]
    cases simulation.timers.popDue? simulation.now with
    | none => exact still
    | some due =>
      dsimp only
      cases event : due.1.payload with
      | tick asker =>
        simp only [handle, ask, eventTurns]
        cases atPlace : simulation.consumers[asker]? with
        | none =>
          by_cases here : asker = place
          · rw [← here, atPlace]
            rfl
          · rw [if_neg here]
            exact still
        | some consumer =>
          exact getElem?_set_turns atPlace [.expire _, .issue _ _] place
      | delivery node face packet => exact still
  | advance time => exact still
  | giveUp time => exact List.getElem?_map

/-- A producer counts its answers, as many as it gives. -/
theorem serve_eq (nodes : List Node) (producer : Producer) :
    ∃ left, Simulation.serve nodes producer = ((producer.replies (requestsTo nodes producer)).length,
      { producer with
        served := producer.served + (producer.replies (requestsTo nodes producer)).length }, left) := by
  unfold Simulation.serve requestsTo
  cases nodes[producer.node]? with
  | none => exact ⟨nodes, rfl⟩
  | some node =>
    dsimp only
    rw [answer_eq]
    exact ⟨_, rfl⟩

theorem producers_perform (move : Move) (place : Nat) : (simulation.perform move).producers[place]? =
    simulation.producers[place]?.map fun producer =>
      { producer with served := producer.served + simulation.replied place move } := by
  have still : simulation.producers[place]? = simulation.producers[place]?.map fun producer =>
      { producer with served := producer.served + 0 } := Option.map_id'.symm
  cases move with
  | sendOff other linkEnd =>
    simp only [perform]
    split <;> exact still
  | feed asker =>
    simp only [perform]
    split <;> exact still
  | serve answerer =>
    simp only [perform, replied]
    cases atPlace : simulation.producers[answerer]? with
    | none => exact still
    | some producer =>
      obtain ⟨left, served⟩ := serve_eq simulation.nodes producer
      dsimp only
      rw [served, List.getElem?_set]
      by_cases here : answerer = place
      · rw [if_pos here, if_pos here, if_pos (List.getElem?_eq_some_iff.mp atPlace).1, ← here, atPlace]
        rfl
      · rw [if_neg here, if_neg here]
        exact still
  | happen =>
    simp only [perform]
    split
    · exact still
    · rename_i timer timers _
      cases timer.payload with
      | tick asker =>
        simp only [handle, ask]
        split <;> exact still
      | delivery node face packet => exact still
  | advance time => exact still
  | giveUp time => exact still

end Simulation

end NamedData
