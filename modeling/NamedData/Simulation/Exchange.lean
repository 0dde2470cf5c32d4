import NamedData.Forwarder.Outbox
import NamedData.Simulation.Applications

namespace NamedData

namespace Simulation

/-- One end of a link, and where the other end is. -/
structure LinkEnd where
  face : FaceId
  /-- The place of the neighbour among the nodes. -/
  peerNode : Nat
  peerFace : FaceId
  delay : Duration

/-- A forwarder in the topology, with its ends of links in the order they were
made. -/
structure Node where
  name : String
  forwarder : Forwarder
  linkEnds : List LinkEnd := []

/-- What is to happen: a consumer asks again, or a packet reaches the far end
of a link. -/
inductive Event where
  | tick (consumer : Nat)
  | delivery (node : Nat) (face : FaceId) (packet : Packet)

def Node.withOutbox (node : Node) (outbox : Outbox) : Node :=
  { node with forwarder := { node.forwarder with outbox } }

/-- Sends off what waits on one end of a link. It is under way for as long as
the link takes. -/
def sendOff (state : Node × Timers Event) (linkEnd : LinkEnd) : Node × Timers Event :=
  let (packets, outbox) := state.1.forwarder.outbox.drain linkEnd.face
  (state.1.withOutbox outbox,
    packets.foldl (fun timers packet =>
      let arrival := .delivery linkEnd.peerNode linkEnd.peerFace packet
      (timers.schedule linkEnd.delay arrival).2) state.2)

/-- Empties the links of all nodes, one node after the other. -/
def sendOffAll : List Node → Timers Event → List Node × Timers Event
  | [], timers => ([], timers)
  | node :: rest, timers =>
    let (sent, timers) := node.linkEnds.foldl sendOff (node, timers)
    let (others, timers) := sendOffAll rest timers
    (sent :: others, timers)

/-- Hands a consumer the Data that waits for it. -/
def collect (now : Instant) (nodes : List Node) (consumer : Consumer) : Consumer × List Node :=
  match nodes[consumer.node]? with
  | none => (consumer, nodes)
  | some node =>
    let (replies, outbox) := node.forwarder.outbox.takeData consumer.face
    (replies.foldl (fun consumer data => consumer.receive data now) consumer,
      nodes.set consumer.node (node.withOutbox outbox))

def collectAll (now : Instant) : List Consumer → List Node → List Consumer × List Node
  | [], nodes => ([], nodes)
  | consumer :: rest, nodes =>
    let (consumer, nodes) := collect now nodes consumer
    let (others, nodes) := collectAll now rest nodes
    (consumer :: others, nodes)

/-- Lets a producer answer Interests one by one, and counts the answers. -/
def answer : List Interest → Producer → Forwarder → Nat × Producer × Forwarder
  | [], producer, forwarder => (0, producer, forwarder)
  | interest :: rest, producer, forwarder =>
    match producer.respond? interest with
    | none => answer rest producer forwarder
    | some (data, producer) =>
      let (count, result) := answer rest producer (forwarder.receiveData producer.face data)
      (count + 1, result)

/-- Hands a producer the Interests that wait for it. -/
def serve (nodes : List Node) (producer : Producer) : Nat × Producer × List Node :=
  match nodes[producer.node]? with
  | none => (0, producer, nodes)
  | some node =>
    let (interests, outbox) := node.forwarder.outbox.takeInterests producer.face
    let (count, served, forwarder) := answer interests producer { node.forwarder with outbox }
    (count, served, nodes.set producer.node { node with forwarder })

def serveAll : List Producer → List Node → Nat × List Producer × List Node
  | [], nodes => (0, [], nodes)
  | producer :: rest, nodes =>
    let (count, producer, nodes) := serve nodes producer
    let (others, producers, nodes) := serveAll rest nodes
    (count + others, producer :: producers, nodes)

/-- How many Interests wait on the nodes to be collected. -/
def waiting : List Node → Nat
  | [] => 0
  | node :: rest => node.forwarder.outbox.interestCount + waiting rest

theorem waiting_set {nodes : List Node} {place : Nat} {old : Node} (new : Node)
    (atPlace : nodes[place]? = some old) :
    waiting (nodes.set place new) + old.forwarder.outbox.interestCount =
      waiting nodes + new.forwarder.outbox.interestCount := by
  induction nodes generalizing place with
  | nil => simp at atPlace
  | cons node rest ih =>
    cases place with
    | zero =>
      simp only [List.getElem?_cons_zero, Option.some.injEq] at atPlace
      subst atPlace
      simp only [List.set_cons_zero, waiting]
      omega
    | succ place =>
      have later := ih (by simpa using atPlace)
      simp only [waiting, List.set_cons_succ] at later ⊢
      omega

theorem interestCount_sendOff_le (state : Node × Timers Event) (linkEnd : LinkEnd) :
    (sendOff state linkEnd).1.forwarder.outbox.interestCount ≤
      state.1.forwarder.outbox.interestCount := by
  have counted := Outbox.interestCount_collect state.1.forwarder.outbox linkEnd.face fun _ => true
  show (state.1.forwarder.outbox.drain linkEnd.face).2.interestCount ≤ _
  unfold Outbox.drain
  omega

theorem interestCount_sendOffs_le (linkEnds : List LinkEnd) (state : Node × Timers Event) :
    (linkEnds.foldl sendOff state).1.forwarder.outbox.interestCount ≤
      state.1.forwarder.outbox.interestCount := by
  induction linkEnds generalizing state with
  | nil => exact Nat.le_refl _
  | cons linkEnd rest ih => exact Nat.le_trans (ih _) (interestCount_sendOff_le state linkEnd)

theorem waiting_sendOffAll_le (nodes : List Node) (timers : Timers Event) :
    waiting (sendOffAll nodes timers).1 ≤ waiting nodes := by
  induction nodes generalizing timers with
  | nil => exact Nat.le_refl _
  | cons node rest ih =>
    have first := interestCount_sendOffs_le node.linkEnds (node, timers)
    unfold sendOffAll
    rcases once : node.linkEnds.foldl sendOff (node, timers) with ⟨sent, later⟩
    have others := ih later
    rcases again : sendOffAll rest later with ⟨nodes, last⟩
    simp only [once, again, waiting] at first others ⊢
    omega

theorem waiting_collect_le (now : Instant) (nodes : List Node) (consumer : Consumer) :
    waiting (collect now nodes consumer).2 ≤ waiting nodes := by
  unfold collect
  split
  · exact Nat.le_refl _
  · rename_i node atPlace
    have counted := Outbox.interestCount_collect node.forwarder.outbox consumer.face (·.isData)
    have replaced := waiting_set (node.withOutbox
      (node.forwarder.outbox.takeData consumer.face).2) atPlace
    show waiting (nodes.set _ (node.withOutbox
      (node.forwarder.outbox.takeData consumer.face).2)) ≤ _
    have same : (node.withOutbox (node.forwarder.outbox.takeData consumer.face).2
        ).forwarder.outbox.interestCount =
      (node.forwarder.outbox.collect consumer.face (·.isData)).2.interestCount := rfl
    omega

theorem waiting_collectAll_le (now : Instant) (consumers : List Consumer) (nodes : List Node) :
    waiting (collectAll now consumers nodes).2 ≤ waiting nodes := by
  induction consumers generalizing nodes with
  | nil => exact Nat.le_refl _
  | cons consumer rest ih =>
    exact Nat.le_trans (ih (collect now nodes consumer).2) (waiting_collect_le now nodes consumer)

theorem answer_count (interests : List Interest) (producer : Producer) (forwarder : Forwarder) :
    (answer interests producer forwarder).1 ≤ interests.length ∧
      (answer interests producer forwarder).2.2.outbox.interestCount =
        forwarder.outbox.interestCount := by
  induction interests generalizing producer forwarder with
  | nil => exact ⟨Nat.le_refl _, rfl⟩
  | cons interest rest ih =>
    unfold answer
    split
    · have later := ih producer forwarder
      exact ⟨Nat.le_succ_of_le later.1, later.2⟩
    · rename_i data served _
      have later := ih served (forwarder.receiveData served.face data)
      exact ⟨Nat.succ_le_succ later.1,
        later.2.trans (Forwarder.interestCount_receiveData _ _ _)⟩

/-- Every answer uses up an Interest that waited. -/
theorem waiting_serve_le (nodes : List Node) (producer : Producer) :
    waiting (serve nodes producer).2.2 + (serve nodes producer).1 ≤ waiting nodes := by
  unfold serve
  split
  · exact Nat.le_refl _
  · rename_i node atPlace
    have taken := Outbox.length_takeInterests node.forwarder.outbox producer.face
    rcases once : node.forwarder.outbox.takeInterests producer.face with ⟨interests, outbox⟩
    have counted := answer_count interests producer { node.forwarder with outbox }
    rcases again : answer interests producer { node.forwarder with outbox } with
      ⟨count, served, forwarder⟩
    have replaced := waiting_set { node with forwarder } atPlace
    simp only [once, again] at taken counted replaced ⊢
    omega

theorem waiting_serveAll_le (producers : List Producer) (nodes : List Node) :
    waiting (serveAll producers nodes).2.2 + (serveAll producers nodes).1 ≤ waiting nodes := by
  induction producers generalizing nodes with
  | nil => exact Nat.le_refl _
  | cons producer rest ih =>
    have first := waiting_serve_le nodes producer
    unfold serveAll
    rcases once : serve nodes producer with ⟨count, served, left⟩
    have later := ih left
    rcases again : serveAll rest left with ⟨others, producers, last⟩
    simp only [once, again] at first later ⊢
    omega

end Simulation

end NamedData
