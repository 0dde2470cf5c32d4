import NamedData.Proofs.Layout

namespace NamedData

theorem Outbox.mem_queue {outbox : Outbox} {face : FaceId} {packet : Packet} :
    packet ∈ outbox.queue face ↔ (face, packet) ∈ outbox.sent := by
  simp only [queue, List.mem_map, List.mem_filter, beq_iff_eq]
  constructor
  · rintro ⟨⟨_, _⟩, ⟨sent, rfl⟩, rfl⟩
    exact sent
  · exact fun sent => ⟨(face, packet), ⟨sent, rfl⟩, rfl⟩

namespace Simulation

variable {simulation : Simulation} {place : Nat} {face : FaceId} {wanted : Packet → Bool} {move : Move}

/-- Something holds of each move of a list at its turn. -/
def Along (Holds : Simulation → Move → Prop) : Simulation → List Move → Prop
  | _, [] => True
  | simulation, move :: rest =>
    Holds simulation move ∧ Along Holds (simulation.perform move) rest

theorem along_append {Holds : Simulation → Move → Prop} {earlier later : List Move} :
    Along Holds simulation (earlier ++ later) ↔
      Along Holds simulation earlier ∧ Along Holds (simulation.follow earlier) later := by
  induction earlier generalizing simulation with
  | nil => exact (true_and _).symm ▸ Iff.rfl
  | cons move rest ih =>
    rw [List.cons_append, Along, Along, ih, and_assoc]
    rfl

theorem along_of_mem {Holds : Simulation → Move → Prop} {moves : List Move}
    (all : ∀ here : Simulation, here.layout = simulation.layout → ∀ move ∈ moves, Holds here move) :
    Along Holds simulation moves := by
  induction moves generalizing simulation with
  | nil => trivial
  | cons move rest ih =>
    refine ⟨all simulation rfl move List.mem_cons_self, ih fun here same later member => ?_⟩
    exact all here (same.trans (layout_perform move)) later (List.mem_cons_of_mem _ member)

/-- A packet of a kind waits on a face of the node at a place. -/
def Waits (simulation : Simulation) (place : Nat) (face : FaceId) (wanted : Packet → Bool) : Prop :=
  ∃ node, simulation.nodes[place]? = some node ∧
    ∃ packet, (face, packet) ∈ node.forwarder.outbox.sent ∧ wanted packet = true

/-- What waits for a producer was sent to its face. -/
theorem mem_requestsTo {nodes : List Node} {producer : Producer} {interest : Interest}
    (member : interest ∈ requestsTo nodes producer) :
    ∃ node, nodes[producer.node]? = some node ∧
      (producer.face, .interest interest) ∈ node.forwarder.outbox.sent := by
  cases found : nodes[producer.node]? with
  | none =>
    rw [requestsTo, found] at member
    cases member
  | some node =>
    rw [requestsTo, found] at member
    obtain ⟨packet, taken, isInterest⟩ := List.mem_filterMap.mp member
    have sent := Outbox.mem_queue.mp (List.mem_filter.mp taken).1
    cases packet with
    | interest request =>
      cases isInterest
      exact ⟨node, rfl, sent⟩
    | data reply => cases isInterest

theorem mem_repliesTo {nodes : List Node} {consumer : Consumer} {data : Data}
    (member : data ∈ repliesTo nodes consumer) :
    ∃ node, nodes[consumer.node]? = some node ∧
      (consumer.face, .data data) ∈ node.forwarder.outbox.sent := by
  cases found : nodes[consumer.node]? with
  | none =>
    rw [repliesTo, found] at member
    cases member
  | some node =>
    rw [repliesTo, found] at member
    obtain ⟨packet, taken, isData⟩ := List.mem_filterMap.mp member
    have sent := Outbox.mem_queue.mp (List.mem_filter.mp taken).1
    cases packet with
    | interest request => cases isData
    | data reply =>
      cases isData
      exact ⟨node, rfl, sent⟩

/-- Nothing waits that an exchange would move. -/
structure Settled (simulation : Simulation) : Prop where
  links : ∀ {place : Nat} {linkEnd : LinkEnd}, linkEnd ∈ simulation.layout.endsAt place →
    ¬ simulation.Waits place linkEnd.face fun _ => true
  askers : ∀ {place : Nat} {face : FaceId}, (place, face) ∈ simulation.layout.askers →
    ¬ simulation.Waits place face (·.isData)
  answerers : ∀ {place : Nat} {face : FaceId}, (place, face) ∈ simulation.layout.answerers →
    ¬ simulation.Waits place face (·.isInterest)

/-- The moves of an exchange. -/
inductive Pumps (layout : Layout) : Move → Prop
  | sendOff {place : Nat} {linkEnd : LinkEnd} (member : linkEnd ∈ layout.endsAt place) :
      Pumps layout (.sendOff place linkEnd)
  | feed (asker : Nat) : Pumps layout (.feed asker)
  | serve (answerer : Nat) : Pumps layout (.serve answerer)

theorem mem_sendOffs {nodes : List Node} {first : Nat} : move ∈ sendOffs first nodes ↔
    ∃ index node linkEnd, nodes[index]? = some node ∧ linkEnd ∈ node.linkEnds ∧
      move = .sendOff (first + index) linkEnd := by
  induction nodes generalizing first with
  | nil => simp [sendOffs]
  | cons node rest ih =>
    rw [sendOffs, List.mem_append, List.mem_map, ih]
    constructor
    · rintro (⟨linkEnd, member, rfl⟩ | ⟨index, other, linkEnd, found, member, rfl⟩)
      · exact ⟨0, node, linkEnd, rfl, member, rfl⟩
      · exact ⟨index + 1, other, linkEnd, found, member, by rw [Nat.add_assoc, Nat.add_comm 1]⟩
    · rintro ⟨index, other, linkEnd, found, member, rfl⟩
      cases index with
      | zero =>
        cases found
        exact Or.inl ⟨linkEnd, member, rfl⟩
      | succ index =>
        exact Or.inr ⟨index, other, linkEnd, found, member, by rw [Nat.add_assoc, Nat.add_comm 1]⟩

theorem mem_exchangeMoves : move ∈ simulation.exchangeMoves ↔
    (∃ place linkEnd, linkEnd ∈ simulation.layout.endsAt place ∧ move = .sendOff place linkEnd) ∨
      (∃ asker < simulation.consumers.length, move = .feed asker) ∨
        ∃ answerer < simulation.producers.length, move = .serve answerer := by
  rw [exchangeMoves, handOutMoves, List.mem_append, List.mem_append, mem_sendOffs, or_assoc]
  refine or_congr ?_ (or_congr ?_ ?_)
  · constructor
    · rintro ⟨index, node, linkEnd, found, member, rfl⟩
      exact ⟨0 + index, linkEnd, mem_endsAt.mpr ⟨node, by rw [Nat.zero_add, found], member⟩, rfl⟩
    · rintro ⟨index, linkEnd, member, rfl⟩
      obtain ⟨node, found, member⟩ := mem_endsAt.mp member
      exact ⟨index, node, linkEnd, found, member, by rw [Nat.zero_add]⟩
  · simp only [List.mem_map, List.mem_range'_1, Nat.zero_le, Nat.zero_add, true_and, eq_comm]
  · simp only [List.mem_map, List.mem_range'_1, Nat.zero_le, Nat.zero_add, true_and, eq_comm]

theorem pumps_exchangeMoves (member : move ∈ simulation.exchangeMoves) :
    Pumps simulation.layout move := by
  rcases mem_exchangeMoves.mp member with
    ⟨place, linkEnd, listed, rfl⟩ | ⟨asker, _, rfl⟩ | ⟨answerer, _, rfl⟩
  · exact .sendOff listed
  · exact .feed asker
  · exact .serve answerer

theorem pumps_settleMoves (member : move ∈ simulation.settleMoves) :
    Pumps simulation.layout move := by
  induction simulation using settle.induct with
  | case1 simulation next exchanged =>
    rw [(settle_of_still exchanged).2] at member
    exact pumps_exchangeMoves member
  | case2 simulation count next exchanged ih =>
    rw [(settle_of_answered exchanged).2] at member
    rcases List.mem_append.mp member with first | later
    · exact pumps_exchangeMoves first
    · have same := exchange_eq_follow simulation
      rw [exchanged] at same
      rw [← layout_follow simulation.exchangeMoves, ← same]
      exact ih later

/-- A move that only takes packets away. -/
def Gathers (simulation : Simulation) (move : Move) : Prop :=
  ∀ place, ∀ action ∈ simulation.calls place move, ∃ face wanted, action = .collect face wanted

theorem gathers_sendOff (other : Nat) (linkEnd : LinkEnd) :
    simulation.Gathers (.sendOff other linkEnd) := by
  intro place action called
  obtain ⟨face, causes⟩ := causes_of_calls (fun _ same => by cases same) called
  cases causes with
  | sendOff wanted own => exact ⟨face, wanted, rfl⟩

theorem gathers_feed (asker : Nat) : simulation.Gathers (.feed asker) := by
  intro place action called
  obtain ⟨face, causes⟩ := causes_of_calls (fun _ same => by cases same) called
  cases causes with
  | feed wanted found own => exact ⟨face, wanted, rfl⟩

theorem gathers_serve {answerer : Nat} {producer : Producer}
    (atPlace : simulation.producers[answerer]? = some producer)
    (silent : producer.replies (requestsTo simulation.nodes producer) = []) :
    simulation.Gathers (.serve answerer) := by
  intro place action called
  simp only [calls, atPlace, silent, List.map_nil] at called
  split at called
  · exact ⟨_, _, List.mem_singleton.mp called⟩
  · cases called

theorem sent_collects {forwarder : Forwarder} {actions : List Action}
    (gathers : ∀ action ∈ actions, ∃ face wanted, action = .collect face wanted) :
    (forwarder.run actions).outbox.sent ⊆ forwarder.outbox.sent := by
  induction actions generalizing forwarder with
  | nil => exact List.Subset.refl _
  | cons action rest ih =>
    obtain ⟨face, wanted, rfl⟩ := gathers action List.mem_cons_self
    refine List.Subset.trans (ih fun action later => ?_) (List.filter_subset_self _)
    exact gathers action (List.mem_cons_of_mem _ later)

theorem Gathers.waits (gathers : simulation.Gathers move)
    (waits : (simulation.perform move).Waits place face wanted) :
    simulation.Waits place face wanted := by
  obtain ⟨node, found, packet, member, isWanted⟩ := waits
  rw [nodes_perform] at found
  obtain ⟨old, atPlace, rfl⟩ := Option.map_eq_some_iff.mp found
  exact ⟨old, atPlace, packet, sent_collects (gathers place) member, isWanted⟩

theorem waits_of_along {moves : List Move} (gathers : Along Gathers simulation moves)
    (waits : (simulation.follow moves).Waits place face wanted) :
    simulation.Waits place face wanted := by
  induction moves generalizing simulation with
  | nil => exact waits
  | cons move rest ih => exact gathers.1.waits (ih gathers.2 waits)

/-- What a move leaves none of on a face. -/
inductive Clears (layout : Layout) : Move → Nat → FaceId → (Packet → Bool) → Prop
  | sendOff (place : Nat) (linkEnd : LinkEnd) :
      Clears layout (.sendOff place linkEnd) place linkEnd.face fun _ => true
  | feed {asker place : Nat} {face : FaceId} (listed : layout.askers[asker]? = some (place, face)) :
      Clears layout (.feed asker) place face (·.isData)
  | serve {answerer place : Nat} {face : FaceId}
      (listed : layout.answerers[answerer]? = some (place, face)) :
      Clears layout (.serve answerer) place face (·.isInterest)

theorem askers_layout {asker : Nat} (listed : simulation.layout.askers[asker]? = some (place, face)) :
    ∃ consumer, simulation.consumers[asker]? = some consumer ∧ consumer.node = place ∧
      consumer.face = face := by
  rw [layout, List.getElem?_map] at listed
  obtain ⟨consumer, found, same⟩ := Option.map_eq_some_iff.mp listed
  cases same
  exact ⟨consumer, found, rfl, rfl⟩

theorem answerers_layout {answerer : Nat}
    (listed : simulation.layout.answerers[answerer]? = some (place, face)) :
    ∃ producer, simulation.producers[answerer]? = some producer ∧ producer.node = place ∧
      producer.face = face := by
  rw [layout, List.getElem?_map] at listed
  obtain ⟨producer, found, same⟩ := Option.map_eq_some_iff.mp listed
  cases same
  exact ⟨producer, found, rfl, rfl⟩

theorem Clears.called (clears : Clears simulation.layout move place face wanted) :
    ∃ rest, simulation.calls place move = .collect face wanted :: rest := by
  cases clears with
  | sendOff place linkEnd => exact ⟨[], by rw [calls, if_pos rfl]⟩
  | feed listed =>
    obtain ⟨consumer, found, rfl, rfl⟩ := askers_layout listed
    exact ⟨[], by simp only [calls, found, if_pos]⟩
  | serve listed =>
    obtain ⟨producer, found, rfl, rfl⟩ := answerers_layout listed
    exact ⟨_, by rw [calls, found]; exact if_pos rfl⟩

theorem Clears.not_waits (clears : Clears simulation.layout move place face wanted)
    (gathers : simulation.Gathers move) : ¬ (simulation.perform move).Waits place face wanted := by
  rintro ⟨node, found, packet, member, isWanted⟩
  rw [nodes_perform] at found
  obtain ⟨old, atPlace, rfl⟩ := Option.map_eq_some_iff.mp found
  obtain ⟨rest, called⟩ := clears.called
  have fewer := gathers place
  rw [called] at fewer
  rw [called] at member
  have left := sent_collects (fun action later => fewer action (List.mem_cons_of_mem _ later)) member
  have kept := (List.mem_filter.mp left).2
  simp [isWanted] at kept

/-- Once it has been cleared, a face stays clear while packets are only taken away. -/
theorem not_waits_of_along {moves : List Move} (gathers : Along Gathers simulation moves)
    (member : move ∈ moves) (clears : Clears simulation.layout move place face wanted) :
    ¬ (simulation.follow moves).Waits place face wanted := by
  induction moves generalizing simulation with
  | nil => cases member
  | cons first rest ih =>
    intro waits
    rcases List.mem_cons.mp member with rfl | later
    · exact clears.not_waits gathers.1 (waits_of_along gathers.2 waits)
    · refine ih gathers.2 later ?_ waits
      rw [layout_perform]
      exact clears

theorem serve_count (nodes : List Node) (producer : Producer) :
    (Simulation.serve nodes producer).1 = (producer.replies (requestsTo nodes producer)).length := by
  obtain ⟨left, served⟩ := serve_eq nodes producer
  rw [served]

/-- When nothing is answered, the producers only take Interests away. -/
theorem gathers_serves (before producers : List Producer) (nodes : List Node)
    (silent : (serveAll producers nodes).1 = 0) :
    Along Gathers { simulation with producers := before ++ producers, nodes }
      ((List.range' before.length producers.length).map .serve) := by
  induction producers generalizing before nodes with
  | nil => trivial
  | cons producer rest ih =>
    obtain ⟨served, isServed⟩ : ∃ served, served = Simulation.serve nodes producer := ⟨_, rfl⟩
    rw [serveAll, ← isServed] at silent
    have quiet : served.1 = 0 ∧ (serveAll rest served.2.2).1 = 0 := Nat.add_eq_zero_iff.mp silent
    have atPlace : (before ++ producer :: rest)[before.length]? = some producer := by
      rw [List.getElem?_append_right (Nat.le_refl _), Nat.sub_self, List.getElem?_cons_zero]
    rw [List.length_cons, List.range'_succ, List.map_cons]
    refine ⟨gathers_serve atPlace ?_, ?_⟩
    · refine List.length_eq_zero_iff.mp ?_
      rw [← serve_count, ← isServed]
      exact quiet.1
    · have first : { simulation with producers := before ++ producer :: rest, nodes }.perform
          (.serve before.length) =
            { simulation with producers := before ++ served.2.1 :: rest, nodes := served.2.2 } := by
        simp only [perform, atPlace, List.set_append_right _ _ (Nat.le_refl _), Nat.sub_self,
          List.set_cons_zero]
        rw [isServed]
      rw [first]
      have later := ih (before ++ [served.2.1]) served.2.2 quiet.2
      rw [List.append_assoc, List.singleton_append, List.length_append, List.length_singleton] at later
      exact later

/-- The last exchange of a round only takes packets away. -/
theorem gathers_exchange (silent : simulation.exchange.1 = 0) :
    Along Gathers simulation simulation.exchangeMoves := by
  rw [exchangeMoves, along_append, follow_handOutMoves]
  refine ⟨along_of_mem fun here _ move member => ?_, ?_⟩
  · rcases List.mem_append.mp member with off | fed
    · obtain ⟨_, _, _, _, _, rfl⟩ := mem_sendOffs.mp off
      exact gathers_sendOff _ _
    · obtain ⟨asker, _, rfl⟩ := List.mem_map.mp fed
      exact gathers_feed asker
  · exact @gathers_serves { simulation with
      timers := (sendOffAll simulation.nodes simulation.timers).2
      consumers := (collectAll simulation.now simulation.consumers
        (sendOffAll simulation.nodes simulation.timers).1).1 } [] simulation.producers _ silent

theorem settled_exchange (silent : simulation.exchange.1 = 0) :
    (simulation.follow simulation.exchangeMoves).Settled := by
  have gathers := gathers_exchange silent
  refine ⟨fun {place linkEnd} listed => ?_, fun {place face} listed => ?_,
    fun {place face} listed => ?_⟩ <;> rw [layout_follow] at listed
  · exact not_waits_of_along gathers (mem_exchangeMoves.mpr (Or.inl ⟨_, _, listed, rfl⟩))
      (.sendOff place linkEnd)
  · obtain ⟨asker, found⟩ := List.mem_iff_getElem?.mp listed
    obtain ⟨_, present, _⟩ := askers_layout found
    have bound := (List.getElem?_eq_some_iff.mp present).1
    exact not_waits_of_along gathers (mem_exchangeMoves.mpr (Or.inr (Or.inl ⟨asker, bound, rfl⟩)))
      (.feed found)
  · obtain ⟨answerer, found⟩ := List.mem_iff_getElem?.mp listed
    obtain ⟨_, present, _⟩ := answerers_layout found
    have bound := (List.getElem?_eq_some_iff.mp present).1
    exact not_waits_of_along gathers
      (mem_exchangeMoves.mpr (Or.inr (Or.inr ⟨answerer, bound, rfl⟩))) (.serve found)

/-- Whatever happened before, nothing is left to move once packets have settled. -/
theorem settled_settle (simulation : Simulation) :
    (simulation.follow simulation.settleMoves).Settled := by
  induction simulation using settle.induct with
  | case1 simulation next exchanged =>
    rw [(settle_of_still exchanged).2]
    exact settled_exchange (by rw [exchanged])
  | case2 simulation count next exchanged ih =>
    have same := exchange_eq_follow simulation
    rw [exchanged] at same
    rw [(settle_of_answered exchanged).2, follow_append, ← same]
    exact ih

end Simulation

end NamedData
