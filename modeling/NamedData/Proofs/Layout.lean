import Mathlib.Data.List.Nodup
import NamedData.Proofs.Calls

namespace NamedData

namespace Simulation

/-- How nodes and applications are joined: the ends of links of each node, and the
node and the face of each consumer and each producer. -/
structure Layout where
  ends : List (List LinkEnd)
  askers : List (Nat × FaceId)
  answerers : List (Nat × FaceId)

def layout (simulation : Simulation) : Layout where
  ends := simulation.nodes.map (·.linkEnds)
  askers := simulation.consumers.map fun consumer => (consumer.node, consumer.face)
  answerers := simulation.producers.map fun producer => (producer.node, producer.face)

/-- The same link seen from its other end. -/
def LinkEnd.back (linkEnd : LinkEnd) (place : Nat) : LinkEnd where
  face := linkEnd.peerFace
  peerNode := place
  peerFace := linkEnd.face
  delay := linkEnd.delay

namespace Layout

def endsAt (layout : Layout) (place : Nat) : List LinkEnd := layout.ends[place]?.getD []

/-- The faces that applications have. -/
def apps (layout : Layout) : List (Nat × FaceId) := layout.askers ++ layout.answerers

/-- No face serves two purposes, and each end of a link has its other end. -/
structure Proper (layout : Layout) : Prop where
  ends : ∀ place, ((layout.endsAt place).map (·.face)).Nodup
  apps : layout.apps.Nodup
  apart : ∀ {place : Nat} {linkEnd : LinkEnd}, linkEnd ∈ layout.endsAt place →
    (place, linkEnd.face) ∉ layout.apps
  mated : ∀ {place : Nat} {linkEnd : LinkEnd}, linkEnd ∈ layout.endsAt place →
    linkEnd.back place ∈ layout.endsAt linkEnd.peerNode

variable {layout : Layout} {place other : Nat} {linkEnd linkEnd' : LinkEnd}

theorem Proper.eq_of_face (proper : layout.Proper) (member : linkEnd ∈ layout.endsAt place)
    (member' : linkEnd' ∈ layout.endsAt place) (same : linkEnd.face = linkEnd'.face) :
    linkEnd = linkEnd' := List.inj_on_of_nodup_map (proper.ends place) member member' same

/-- No two ends of links lead to the same face. -/
theorem Proper.eq_of_peer (proper : layout.Proper) (member : linkEnd ∈ layout.endsAt place)
    (member' : linkEnd' ∈ layout.endsAt other) (node : linkEnd.peerNode = linkEnd'.peerNode)
    (face : linkEnd.peerFace = linkEnd'.peerFace) : place = other ∧ linkEnd = linkEnd' := by
  have back := proper.mated member
  rw [node] at back
  have same := proper.eq_of_face back (proper.mated member') face
  obtain ⟨_, peerNode, _, delay⟩ := linkEnd
  obtain ⟨_, _, _, _⟩ := linkEnd'
  cases same
  cases node
  exact ⟨rfl, rfl⟩

end Layout

variable {simulation : Simulation} {place : Nat} {move : Move}

theorem endsAt_layout : simulation.layout.endsAt place =
    (simulation.nodes[place]?.map (·.linkEnds)).getD [] := by
  rw [Layout.endsAt, layout, List.getElem?_map]

theorem mem_endsAt {linkEnd : LinkEnd} : linkEnd ∈ simulation.layout.endsAt place ↔
    ∃ node, simulation.nodes[place]? = some node ∧ linkEnd ∈ node.linkEnds := by
  rw [endsAt_layout]
  cases simulation.nodes[place]? with
  | none => simp
  | some node => simp

/-- What a turn never changes about a consumer. -/
theorem kept_take (consumer : Consumer) (turn : Consumer.Turn) :
    (consumer.take turn).node = consumer.node ∧ (consumer.take turn).face = consumer.face ∧
      (consumer.take turn).under = consumer.under ∧
      (consumer.take turn).lifetime = consumer.lifetime := by
  cases turn with
  | receive data now =>
    simp only [Consumer.take, Consumer.receive]
    split <;> exact ⟨rfl, rfl, rfl, rfl⟩
  | expire now => exact ⟨rfl, rfl, rfl, rfl⟩
  | issue now nonce => exact ⟨rfl, rfl, rfl, rfl⟩

theorem kept_follow (consumer : Consumer) (turns : List Consumer.Turn) :
    (consumer.follow turns).node = consumer.node ∧ (consumer.follow turns).face = consumer.face ∧
      (consumer.follow turns).under = consumer.under ∧
      (consumer.follow turns).lifetime = consumer.lifetime := by
  induction turns generalizing consumer with
  | nil => exact ⟨rfl, rfl, rfl, rfl⟩
  | cons turn rest ih =>
    obtain ⟨node, face, under, lifetime⟩ := ih (consumer.take turn)
    obtain ⟨node', face', under', lifetime'⟩ := kept_take consumer turn
    exact ⟨node.trans node', face.trans face', under.trans under', lifetime.trans lifetime'⟩

theorem layout_perform (move : Move) : (simulation.perform move).layout = simulation.layout := by
  have ends : (simulation.perform move).nodes.map (·.linkEnds) =
      simulation.nodes.map (·.linkEnds) := List.ext_getElem? fun place => by
    rw [List.getElem?_map, List.getElem?_map, nodes_perform, Option.map_map]
    rfl
  have askers : ((simulation.perform move).consumers.map fun consumer =>
      (consumer.node, consumer.face)) = simulation.consumers.map fun consumer =>
        (consumer.node, consumer.face) := List.ext_getElem? fun place => by
    rw [List.getElem?_map, List.getElem?_map, consumers_perform, Option.map_map]
    refine Option.map_congr fun consumer _ => ?_
    obtain ⟨node, face, _⟩ := kept_follow consumer (simulation.turns place move)
    exact Prod.ext node face
  have answerers : ((simulation.perform move).producers.map fun producer =>
      (producer.node, producer.face)) = simulation.producers.map fun producer =>
        (producer.node, producer.face) := List.ext_getElem? fun place => by
    rw [List.getElem?_map, List.getElem?_map, producers_perform, Option.map_map]
    rfl
  rw [layout, ends, askers, answerers]
  rfl

theorem layout_follow (moves : List Move) :
    (simulation.follow moves).layout = simulation.layout := by
  induction moves generalizing simulation with
  | nil => rfl
  | cons move rest ih => exact ih.trans (layout_perform move)

/-- The node and the face that a move is about. -/
def port? (simulation : Simulation) : Move → Option (Nat × FaceId)
  | .sendOff place linkEnd => some (place, linkEnd.face)
  | .feed asker => simulation.consumers[asker]?.map fun consumer => (consumer.node, consumer.face)
  | .serve answerer =>
    simulation.producers[answerer]?.map fun producer => (producer.node, producer.face)
  | .happen =>
    (simulation.timers.popDue? simulation.now).bind fun due =>
      match due.1.payload with
      | .tick asker => simulation.consumers[asker]?.map fun consumer => (consumer.node, consumer.face)
      | .delivery node face _ => some (node, face)
  | _ => none

/-- What happens on one face. -/
inductive On (face : FaceId) : Action → Prop
  | collect (wanted : Packet → Bool) : On face (.collect face wanted)
  | interest (interest : Interest) : On face (.receiveInterest face interest)
  | data (data : Data) : On face (.receiveData face data)

theorem on_arrival (face : FaceId) (packet : Packet) : On face (arrival face packet) := by
  cases packet with
  | interest interest => exact .interest interest
  | data data => exact .data data

/-- How a move comes to do something on a face of the node at a place. -/
inductive Causes (simulation : Simulation) (place : Nat) (face : FaceId) : Move → Action → Prop
  | sendOff {linkEnd : LinkEnd} (wanted : Packet → Bool) (own : linkEnd.face = face) :
      Causes simulation place face (.sendOff place linkEnd) (.collect face wanted)
  | feed {asker : Nat} {consumer : Consumer} (wanted : Packet → Bool)
      (found : simulation.consumers[asker]? = some consumer)
      (own : (consumer.node, consumer.face) = (place, face)) :
      Causes simulation place face (.feed asker) (.collect face wanted)
  | take {answerer : Nat} {producer : Producer} (wanted : Packet → Bool)
      (found : simulation.producers[answerer]? = some producer)
      (own : (producer.node, producer.face) = (place, face)) :
      Causes simulation place face (.serve answerer) (.collect face wanted)
  | answer {answerer : Nat} {producer : Producer} (data : Data)
      (found : simulation.producers[answerer]? = some producer)
      (own : (producer.node, producer.face) = (place, face)) :
      Causes simulation place face (.serve answerer) (.receiveData face data)
  | ask {timer : Timer Event} {rest : Timers Event} {asker : Nat} {consumer : Consumer}
      (interest : Interest) (popped : simulation.timers.popDue? simulation.now = some (timer, rest))
      (event : timer.payload = .tick asker) (found : simulation.consumers[asker]? = some consumer)
      (own : (consumer.node, consumer.face) = (place, face)) :
      Causes simulation place face .happen (.receiveInterest face interest)
  | request {timer : Timer Event} {rest : Timers Event} (interest : Interest)
      (popped : simulation.timers.popDue? simulation.now = some (timer, rest))
      (event : timer.payload = .delivery place face (.interest interest)) :
      Causes simulation place face .happen (.receiveInterest face interest)
  | reply {timer : Timer Event} {rest : Timers Event} (data : Data)
      (popped : simulation.timers.popDue? simulation.now = some (timer, rest))
      (event : timer.payload = .delivery place face (.data data)) :
      Causes simulation place face .happen (.receiveData face data)

variable {action : Action} {face : FaceId}

theorem Move.still_or_advances (move : Move) :
    (∀ time, move ≠ .advance time) ∨ ∃ time, move = .advance time := by
  cases move with
  | advance time => exact Or.inr ⟨time, rfl⟩
  | _ => exact Or.inl fun _ same => by cases same

theorem mem_calls_advance {time : Instant}
    (called : action ∈ simulation.calls place (.advance time)) :
    action = .fireNext time ∨ action = .passTime time := by
  simp only [calls] at called
  split at called
  · cases called
  · rcases List.mem_append.mp called with fires | passes
    · exact Or.inl (List.eq_of_mem_replicate fires)
    · exact Or.inr (List.mem_singleton.mp passes)

/-- A move that is no move of the clocks concerns one face of one node. -/
theorem causes_of_calls (still : ∀ time, move ≠ .advance time)
    (called : action ∈ simulation.calls place move) :
    ∃ face, simulation.Causes place face move action := by
  cases move with
  | sendOff other linkEnd =>
    simp only [calls] at called
    split at called
    · rename_i here
      rw [List.mem_singleton.mp called, here]
      exact ⟨linkEnd.face, .sendOff _ rfl⟩
    · cases called
  | feed asker =>
    simp only [calls] at called
    split at called
    · cases called
    · rename_i consumer atPlace
      split at called
      · rename_i here
        rw [List.mem_singleton.mp called]
        exact ⟨consumer.face, .feed _ atPlace (by rw [here])⟩
      · cases called
  | serve answerer =>
    simp only [calls] at called
    split at called
    · cases called
    · rename_i producer atPlace
      split at called
      · rename_i here
        refine ⟨producer.face, ?_⟩
        rcases List.mem_cons.mp called with rfl | later
        · exact .take _ atPlace (by rw [here])
        · obtain ⟨data, _, rfl⟩ := List.mem_map.mp later
          exact .answer data atPlace (by rw [here])
      · cases called
  | happen =>
    simp only [calls] at called
    split at called
    · cases called
    · rename_i timer timers popped
      cases event : timer.payload with
      | tick asker =>
        rw [event] at called
        simp only [eventCalls] at called
        split at called
        · cases called
        · rename_i consumer atPlace
          split at called
          · rename_i here
            rw [List.mem_singleton.mp called]
            exact ⟨consumer.face, .ask _ popped event atPlace (by rw [here])⟩
          · cases called
      | delivery node face packet =>
        rw [event] at called
        simp only [eventCalls] at called
        split at called
        · rename_i here
          rw [List.mem_singleton.mp called]
          rw [here] at event
          cases packet with
          | interest interest => exact ⟨face, .request interest popped event⟩
          | data data => exact ⟨face, .reply data popped event⟩
        · cases called
  | advance time => exact absurd rfl (still time)
  | giveUp time => cases called

theorem Causes.port (causes : simulation.Causes place face move action) :
    simulation.port? move = some (place, face) := by
  cases causes with
  | sendOff wanted own => rw [port?, own]
  | feed wanted found own => rw [port?, found, ← own]; rfl
  | take wanted found own => rw [port?, found, ← own]; rfl
  | answer data found own => rw [port?, found, ← own]; rfl
  | ask interest popped event found own =>
    simp only [port?, popped, Option.bind_some, event, found, Option.map_some, own]
  | request interest popped event => simp only [port?, popped, Option.bind_some, event]
  | reply data popped event => simp only [port?, popped, Option.bind_some, event]

theorem Causes.on (causes : simulation.Causes place face move action) : On face action := by
  cases causes with
  | sendOff wanted => exact .collect wanted
  | feed wanted => exact .collect wanted
  | take wanted => exact .collect wanted
  | answer data => exact .data data
  | ask interest => exact .interest interest
  | request interest => exact .interest interest
  | reply data => exact .data data

end Simulation

end NamedData
