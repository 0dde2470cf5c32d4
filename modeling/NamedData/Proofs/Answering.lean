import NamedData.Proofs.ProducerRoutes

namespace NamedData

/-- What a producer has to say to an Interest. -/
def Producer.answer (producer : Producer) (interest : Interest) : Data where
  name := interest.name
  content := producer.payload.get
  freshness := producer.freshness

/-- Interests under its prefix get an answer of a producer each. -/
theorem Producer.replies_eq_map {producer : Producer} {interests : List Interest}
    (mine : ∀ interest ∈ interests, producer.under.isPrefixOf interest.name = true) :
    producer.replies interests = interests.map producer.answer := by
  induction interests with
  | nil => rfl
  | cons first rest ih =>
    have responds : (producer.respond? first).map (·.1) = some (producer.answer first) := by
      unfold respond?
      rw [if_pos (mine first List.mem_cons_self)]
      rfl
    have later := ih fun interest member => mine interest (List.mem_cons_of_mem _ member)
    rw [Producer.replies, List.filterMap_cons, responds]
    exact congrArg (_ :: ·) later

/-- The Interests that are taken from a face are those that were sent to it. -/
theorem Outbox.takeInterests_eq (outbox : Outbox) (face : FaceId) :
    (outbox.takeInterests face).1 =
      outbox.sent.filterMap fun out => if out.1 = face then out.2.interest? else none := by
  show List.filterMap _ (List.filter _ (List.map _ (List.filter _ outbox.sent))) = _
  rw [List.filterMap_filter, List.filterMap_map, List.filterMap_filter]
  refine List.filterMap_congr fun out _ => ?_
  by_cases here : out.1 = face
  · simp only [here, beq_self_eq_true, if_true, Function.comp_apply]
    cases out.2 <;> rfl
  · simp only [here, beq_eq_false_iff_ne.mpr here, Bool.false_eq_true, if_false]

namespace Forwarder

variable {forwarder : Forwarder} {face : FaceId} {action : Action}

/-- The Interests that wait on a face. -/
def requestsOn (forwarder : Forwarder) (face : FaceId) : List Interest :=
  (forwarder.outbox.takeInterests face).1

theorem requestsOn_collect (wanted : Packet → Bool) {other : FaceId} (apart : other ≠ face) :
    (forwarder.act (.collect other wanted)).requestsOn face = forwarder.requestsOn face := by
  rw [requestsOn, requestsOn, Outbox.takeInterests_eq, Outbox.takeInterests_eq]
  show List.filterMap _ (List.filter _ _) = _
  rw [List.filterMap_filter]
  refine List.filterMap_congr fun out _ => ?_
  by_cases here : out.1 = face
  · subst here
    have kept : (out.1 == other) = false := beq_eq_false_iff_ne.mpr (Ne.symm apart)
    simp [kept]
  · simp [here]

theorem requestsOn_taken :
    (forwarder.act (.collect face (·.isInterest))).requestsOn face = [] := by
  rw [requestsOn, Outbox.takeInterests_eq]
  refine List.filterMap_eq_nil_iff.mpr fun out left => ?_
  obtain ⟨other, packet⟩ := out
  have kept := (List.mem_filter.mp left).2
  by_cases here : other = face
  · cases packet with
    | interest interest => simp [here, Packet.isInterest] at kept
    | data data => simp [Packet.interest?]
  · simp [here]

/-- Data makes no Interest go out. -/
theorem requestsOn_receiveData (source : FaceId) (data : Data) :
    (forwarder.act (.receiveData source data)).requestsOn face = forwarder.requestsOn face := by
  obtain ⟨faces, handed⟩ := forwarder.sent_receiveData source data
  have none : (faces.map fun face => (face, Packet.data { data with incomingFace := none })).filterMap
      (fun out => if out.1 = face then out.2.interest? else none) = [] := by
    refine List.filterMap_eq_nil_iff.mpr fun out member => ?_
    obtain ⟨other, _, rfl⟩ := List.mem_map.mp member
    simp [Packet.interest?]
  rw [requestsOn, requestsOn, Outbox.takeInterests_eq, Outbox.takeInterests_eq, act, handed,
    List.filterMap_append, none, List.append_nil]

/-- Actions that leave the Interests on a face alone. -/
inductive Spares (face : FaceId) : Action → Prop
  | collects {other : FaceId} (apart : other ≠ face) (wanted : Packet → Bool) :
    Spares face (.collect other wanted)
  | receives (source : FaceId) (data : Data) : Spares face (.receiveData source data)

theorem requestsOn_run {actions : List Action} (spares : ∀ action ∈ actions, Spares face action) :
    (forwarder.run actions).requestsOn face = forwarder.requestsOn face := by
  induction actions generalizing forwarder with
  | nil => rfl
  | cons action rest ih =>
    refine (ih fun later member => spares later (List.mem_cons_of_mem _ member)).trans ?_
    cases spares action List.mem_cons_self with
    | collects apart wanted => exact requestsOn_collect wanted apart
    | receives source data => exact requestsOn_receiveData source data

end Forwarder

namespace Simulation

variable {simulation : Simulation} {move : Move} {rounds answerer : Nat} {producer : Producer}

/-- Each round but the last uses up an Interest, so there are enough rounds if there are more
of them than Interests that wait. -/
theorem settleWithin?_eq_some (enough : waiting simulation.nodes < rounds) :
    settleWithin? rounds simulation = some simulation.settle := by
  induction rounds generalizing simulation with
  | zero => cases enough
  | succ rounds ih =>
    have fewer := waiting_exchange_le simulation
    rw [settleWithin?]
    cases exchanged : simulation.exchange with
    | mk count next =>
      rw [exchanged] at fewer
      cases count with
      | zero => rw [(settle_of_still exchanged).1]
      | succ count =>
        have less : waiting next.nodes < rounds := by
          dsimp only at fewer
          omega
        rw [(settle_of_answered exchanged).1]
        exact ih less

/-- If a producer has its turn in this move, it takes the Interests that wait for it, and
gives its node one Data of the same name for each of them. -/
def AnswersAll (simulation : Simulation) (move : Move) : Prop :=
  ∀ {answerer : Nat} {producer : Producer} {node : Node}, move = .serve answerer →
    simulation.producers[answerer]? = some producer →
      simulation.nodes[producer.node]? = some node →
        ∃ requests left, node.forwarder.outbox.takeInterests producer.face = (requests, left) ∧
          (simulation.perform move).producers[answerer]? =
            some { producer with served := producer.served + requests.length } ∧
          (simulation.perform move).nodes[producer.node]? = some { node with
            forwarder := (requests.map producer.answer).foldl
              (fun forwarder reply => forwarder.receiveData producer.face reply)
              { node.forwarder with outbox := left } }

theorem requestsTo_eq {node : Node} (found : simulation.nodes[producer.node]? = some node) :
    requestsTo simulation.nodes producer = node.forwarder.requestsOn producer.face := by
  rw [requestsTo, found]
  rfl

/-- All that waits for a producer is under its prefix, so all of it is answered. -/
theorem Reserved.replies (reserved : simulation.Reserved)
    (listed : simulation.producers[answerer]? = some producer) :
    producer.replies (requestsTo simulation.nodes producer) =
      (requestsTo simulation.nodes producer).map producer.answer := by
  refine Producer.replies_eq_map fun interest member => ?_
  obtain ⟨node, found, waits⟩ := mem_requestsTo member
  exact (reserved.faces listed found).waits waits

theorem Reserved.answersAll (reserved : simulation.Reserved) (move : Move) :
    simulation.AnswersAll move := by
  rintro answerer producer node rfl listed found
  have replies := reserved.replies listed
  rw [requestsTo_eq found] at replies
  refine ⟨_, _, rfl, ?_, ?_⟩
  · rw [producers_perform, listed]
    simp only [replied, listed, requestsTo_eq found, replies, if_pos, List.length_map, Option.map_some]
    rfl
  · rw [nodes_perform, found]
    simp only [calls, listed, requestsTo_eq found, replies, if_pos, Option.map_some]
    rw [List.foldl_map, List.map_map, Forwarder.run, List.foldl_cons, List.foldl_map]
    rfl

theorem Reserved.along (reserved : simulation.Reserved) (moves : List Move) :
    Along AnswersAll simulation moves := by
  induction moves generalizing simulation with
  | nil => trivial
  | cons move rest ih => exact ⟨reserved.answersAll move, ih (reserved.perform move)⟩

/-- No other move of an exchange touches the Interests that wait for a producer. -/
theorem Pumps.spares (proper : simulation.layout.Proper) (pumps : Pumps simulation.layout move)
    (listed : simulation.producers[answerer]? = some producer) (others : move ≠ .serve answerer) :
    ∀ action ∈ simulation.calls producer.node move, Forwarder.Spares producer.face action := by
  intro action called
  have answers : simulation.layout.answerers[answerer]? = some (producer.node, producer.face) := by
    rw [layout, List.getElem?_map, listed]
    rfl
  have app := List.mem_append_right simulation.layout.askers (List.mem_of_getElem? answers)
  obtain ⟨_, distinct, disjoint⟩ := List.nodup_append.mp proper.apps
  have still : ∀ time, move ≠ .advance time := by
    rintro time rfl
    cases pumps
  obtain ⟨face, causes⟩ := causes_of_calls still called
  cases causes with
  | sendOff wanted own =>
    refine .collects (fun same => ?_) wanted
    cases pumps with
    | sendOff member =>
      rw [← same, ← own] at app
      exact proper.apart member app
  | feed wanted found own =>
    refine .collects (fun same => ?_) wanted
    have asks : (producer.node, producer.face) ∈ simulation.layout.askers :=
      List.mem_map.mpr ⟨_, List.mem_of_getElem? found, by rw [own, same]⟩
    exact disjoint _ asks _ (List.mem_of_getElem? answers) rfl
  | @take other _ wanted found own =>
    refine .collects (fun same => ?_) wanted
    have answers' : simulation.layout.answerers[other]? = some (producer.node, producer.face) := by
      rw [layout, List.getElem?_map, found, ← same, ← own]
      rfl
    have bound := (List.getElem?_eq_some_iff.mp answers).1
    have same := (List.getElem?_inj bound distinct).mp (answers.trans answers'.symm)
    exact others (by rw [same])
  | answer data => exact .receives _ data
  | ask => cases pumps
  | request => cases pumps
  | reply data => exact .receives _ data

/-- What a producer has answered and what still waits for it are together what waited. -/
theorem Reserved.requests_perform (reserved : simulation.Reserved)
    (proper : simulation.layout.Proper) (pumps : Pumps simulation.layout move)
    (listed : simulation.producers[answerer]? = some producer) :
    simulation.replied answerer move + (requestsTo (simulation.perform move).nodes producer).length =
      (requestsTo simulation.nodes producer).length := by
  have after : requestsTo (simulation.perform move).nodes producer =
      (simulation.nodes[producer.node]?.map fun node =>
        (node.forwarder.run (simulation.calls producer.node move)).requestsOn producer.face).getD [] := by
    rw [requestsTo, nodes_perform, Option.map_map]
    rfl
  by_cases turn : move = .serve answerer
  · subst turn
    have answered : simulation.replied answerer (.serve answerer) =
        (requestsTo simulation.nodes producer).length := by
      simp only [replied, listed, if_pos, reserved.replies listed, List.length_map]
    have none : requestsTo (simulation.perform (.serve answerer)).nodes producer = [] := by
      rw [after]
      cases simulation.nodes[producer.node]? with
      | none => rfl
      | some node =>
        simp only [calls, listed, if_pos, Option.map_some, Option.getD_some]
        rw [Forwarder.run, List.foldl_cons, ← Forwarder.run, Forwarder.requestsOn_run]
        · exact Forwarder.requestsOn_taken
        · rintro action called
          obtain ⟨reply, _, rfl⟩ := List.mem_map.mp called
          exact .receives _ reply
    rw [answered, none, List.length_nil, Nat.add_zero]
  · have silent : simulation.replied answerer move = 0 := by
      cases pumps with
      | sendOff => rfl
      | feed => rfl
      | serve other =>
        have apart : other ≠ answerer := fun same => turn (by rw [same])
        simp only [replied, if_neg apart]
        split <;> rfl
    have same : requestsTo (simulation.perform move).nodes producer =
        requestsTo simulation.nodes producer := by
      rw [after, requestsTo]
      cases simulation.nodes[producer.node]? with
      | none => rfl
      | some node => exact Forwarder.requestsOn_run (pumps.spares proper listed turn)
    rw [silent, same, Nat.zero_add]

theorem Reserved.requests_follow (reserved : simulation.Reserved)
    (proper : simulation.layout.Proper) {moves : List Move}
    (pumps : ∀ move ∈ moves, Pumps simulation.layout move)
    (listed : simulation.producers[answerer]? = some producer) :
    ∃ count, (simulation.follow moves).producers[answerer]? =
        some { producer with served := producer.served + count } ∧
      count + (requestsTo (simulation.follow moves).nodes producer).length =
        (requestsTo simulation.nodes producer).length := by
  induction moves generalizing simulation producer with
  | nil => exact ⟨0, listed, Nat.zero_add _⟩
  | cons move rest ih =>
    have first := reserved.requests_perform proper (pumps move List.mem_cons_self) listed
    have listed' := @producers_perform simulation move answerer
    rw [listed, Option.map_some] at listed'
    have layout := @layout_perform simulation move
    obtain ⟨count, served, later⟩ := ih (reserved.perform move) (by rw [layout]; exact proper)
      (fun move member => by rw [layout]; exact pumps move (List.mem_cons_of_mem _ member)) listed'
    refine ⟨simulation.replied answerer move + count, ?_, ?_⟩
    · rw [← Nat.add_assoc]
      exact served
    · rw [Nat.add_assoc, ← first]
      exact congrArg (_ + ·) later

/-- Once packets have settled, a producer has answered each Interest that waited for it. -/
theorem Reserved.served_settle (reserved : simulation.Reserved) (proper : simulation.layout.Proper)
    (listed : simulation.producers[answerer]? = some producer) :
    simulation.settle.producers[answerer]? = some { producer with
      served := producer.served + (requestsTo simulation.nodes producer).length } := by
  rw [settle_eq_follow]
  obtain ⟨count, served, total⟩ :=
    reserved.requests_follow proper (fun _ => pumps_settleMoves) listed
  have settled := settled_settle simulation
  have answers : (producer.node, producer.face) ∈
      (simulation.follow simulation.settleMoves).layout.answerers := by
    rw [layout_follow]
    exact List.mem_map.mpr ⟨producer, List.mem_of_getElem? listed, rfl⟩
  have none : requestsTo (simulation.follow simulation.settleMoves).nodes producer = [] := by
    refine List.eq_nil_iff_forall_not_mem.mpr fun interest waits => ?_
    obtain ⟨node, found, sent⟩ := mem_requestsTo waits
    exact settled.answerers answers ⟨node, found, _, sent, rfl⟩
  rw [none, List.length_nil, Nat.add_zero] at total
  rw [served, total]

/-- A scenario that passes its check can be set up. At any point of its run, whatever the clock
shows and whatever is under way, packets settle in no more rounds than Interests wait, and one
more. Then nothing waits on a link, no Interest on the face of a producer and no Data on the
face of a consumer. On the way each Interest that a producer took was answered by one Data, and
all in all each producer answered as many as waited for it. -/
theorem packets_settle_and_requests_are_answered {scenario : Scenario}
    (passed : scenario.check = .ok ())
    (spans : ∀ setting ∈ scenario.consumers, setting.interval?.isSome = true) (nonces : NonceSource) :
    ∃ start, ofScenario scenario nonces = .ok start ∧
      ∀ {budget : Nat} {earlier later : List Move}, start.moves budget = earlier ++ later →
        ∀ (timers : Timers Event) (here : Simulation), here = { start.follow earlier with timers } →
          settleWithin? (waiting here.nodes + 1) here = some here.settle ∧
            here.settle.Settled ∧
            here.settle = here.follow here.settleMoves ∧ Along AnswersAll here here.settleMoves ∧
            ∀ {answerer : Nat} {producer : Producer}, here.producers[answerer]? = some producer →
              here.settle.producers[answerer]? = some { producer with
                served := producer.served + (requestsTo here.nodes producer).length } := by
  obtain ⟨start, made, setUp, explained⟩ := exists_ofScenario_keeping passed spans nonces
    keptUp_explained fun _ fresh => explained_bare fresh
  refine ⟨start, made, fun {_ earlier _} _ timers here isHere => ?_⟩
  have before := (setUp.reserved explained).follow earlier
  have reserved : here.Reserved := by
    rw [isHere]
    exact ⟨before.sound, before.faces⟩
  have layout : here.layout = start.layout := by
    rw [isHere]
    exact layout_follow earlier
  have proper : here.layout.Proper := by
    rw [layout]
    exact setUp.proper
  refine ⟨settleWithin?_eq_some (Nat.lt_succ_self _), ?_, settle_eq_follow here, reserved.along _,
    fun listed => reserved.served_settle proper listed⟩
  rw [settle_eq_follow]
  exact settled_settle here

theorem requests_are_answered_between_neighbours : neighbours.check = .ok () ∧
    (∀ setting ∈ neighbours.consumers, setting.interval?.isSome = true) ∧
    ∃ start, ofScenario neighbours (.scrambled 1) = .ok start ∧
      ∀ {budget : Nat} {earlier later : List Move}, start.moves budget = earlier ++ later →
        ∀ here, here = start.follow earlier → here.settle.Settled ∧
          ∀ producer, here.producers[0]? = some producer → ∃ served, here.settle.producers[0]? =
            some { producer with served := producer.served + served } ∧
              served = (requestsTo here.nodes producer).length := by
  have passed : neighbours.check = .ok () := by decide +kernel
  have spans : ∀ setting ∈ neighbours.consumers, setting.interval?.isSome = true := by
    decide +kernel
  obtain ⟨start, made, settles⟩ :=
    packets_settle_and_requests_are_answered passed spans (.scrambled 1)
  refine ⟨passed, spans, start, made, fun isPart here isHere => ?_⟩
  obtain ⟨_, settled, _, _, answered⟩ := settles isPart here.timers here (by rw [isHere])
  exact ⟨settled, fun producer listed => ⟨_, answered listed, rfl⟩⟩

end Simulation

end NamedData
