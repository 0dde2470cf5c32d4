import NamedData.Simulation.Exchange

namespace NamedData

/-- Forwarders joined by links that take time, with applications on them. All
share one clock, and packets under way are events of it. -/
structure Simulation where
  /-- When the run is over. -/
  stop : Instant
  nodes : List Simulation.Node
  consumers : List Consumer := []
  producers : List Producer := []
  timers : Timers Simulation.Event := .empty
  /-- Where the consumers take their nonces from. -/
  nonces : NonceSource

namespace Simulation

def now (simulation : Simulation) : Instant := simulation.timers.now

/-- Moves packets out of every face once: onto the links, to the consumers, to
the producers. Counts the answers, which may have made for more packets. -/
def exchange (simulation : Simulation) : Nat × Simulation :=
  let (nodes, timers) := sendOffAll simulation.nodes simulation.timers
  let (consumers, nodes) := collectAll simulation.now simulation.consumers nodes
  let (count, producers, nodes) := serveAll simulation.producers nodes
  (count, { simulation with timers, consumers, producers, nodes })

theorem waiting_exchange_le (simulation : Simulation) :
    waiting simulation.exchange.2.nodes + simulation.exchange.1 ≤ waiting simulation.nodes := by
  have sent := waiting_sendOffAll_le simulation.nodes simulation.timers
  unfold exchange
  rcases once : sendOffAll simulation.nodes simulation.timers with ⟨left, timers⟩
  have collected := waiting_collectAll_le simulation.now simulation.consumers left
  rcases again : collectAll simulation.now simulation.consumers left with ⟨consumers, others⟩
  have served := waiting_serveAll_le simulation.producers others
  rcases last : serveAll simulation.producers others with ⟨count, producers, nodes⟩
  simp only [once, again, last] at sent collected served ⊢
  omega

/-- Moves packets until no producer has anything to answer. Data never makes a
forwarder send an Interest, so each round leaves fewer of them. -/
def settle (simulation : Simulation) : Simulation :=
  match _exchanged : simulation.exchange with
  | (0, next) => next
  | (_ + 1, next) => next.settle
termination_by waiting simulation.nodes
decreasing_by
  have fewer := waiting_exchange_le simulation
  rw [_exchanged] at fewer
  dsimp only at fewer
  omega

/-- Changes the forwarder at a place among the nodes. -/
def updateNode (simulation : Simulation) (place : Nat) (change : Forwarder → Forwarder) :
    Simulation :=
  { simulation with
    nodes := simulation.nodes.modify place fun node =>
      { node with forwarder := change node.forwarder } }

/-- A consumer gives up what took too long, asks again, and waits for its next
turn. -/
def ask (simulation : Simulation) (place : Nat) : Simulation :=
  match simulation.consumers[place]? with
  | none => simulation
  | some consumer =>
    let (nonce, nonces) := simulation.nonces.next
    let (interest, consumer) := (consumer.expire simulation.now).issue simulation.now nonce
    let asked := { simulation with
      nonces
      consumers := simulation.consumers.set place consumer }.updateNode consumer.node
        fun forwarder => forwarder.receiveInterest consumer.face interest
    { asked with timers := (asked.timers.schedule consumer.interval (.tick place)).2 }

/-- A packet reaches the far end of a link. -/
def deliver (simulation : Simulation) (place : Nat) (face : FaceId) (packet : Packet) :
    Simulation :=
  simulation.updateNode place fun forwarder =>
    match packet with
    | .interest interest => forwarder.receiveInterest face interest
    | .data data => forwarder.receiveData face data

def handle (simulation : Simulation) : Event → Simulation
  | .tick consumer => simulation.ask consumer
  | .delivery node face packet => simulation.deliver node face packet

def Node.advanceTo (node : Node) (time : Instant) : Node :=
  { node with forwarder := node.forwarder.advanceTo time }

/-- Moves the clock of every forwarder, and the simulation's own. -/
def advanceTo (simulation : Simulation) (time : Instant) : Simulation :=
  let advanced : Simulation := { simulation with
    nodes := simulation.nodes.map (·.advanceTo time)
    timers := simulation.timers.advanceTo time }
  advanced.settle

/-- The earlier of two deadlines. -/
def earlier : Option Instant → Option Instant → Option Instant
  | none, other => other
  | some first, none => some first
  | some first, some other => some (min first other)

/-- When something happens next, in a forwarder or between them. -/
def nextDeadline? (simulation : Simulation) : Option Instant :=
  simulation.nodes.foldl (fun next node => earlier next node.forwarder.nextDeadline?)
    simulation.timers.nextDeadline?

/-- One step of a run. What is due now happens first, one event at a time. Then
the clock moves on to the next deadline, unless the run is over before. The
timers of the forwarders fire before the events of the same time. -/
def step? (simulation : Simulation) : Option Simulation :=
  match simulation.timers.popDue? simulation.now with
  | some (timer, timers) => some ({ simulation with timers }.handle timer.payload).settle
  | none =>
    match simulation.nextDeadline? with
    | none => none
    | some time => if time ≤ simulation.stop then some (simulation.advanceTo time) else none

/-- Moves the clock to the end and gives up what took too long by then. -/
def conclude (simulation : Simulation) : Simulation :=
  let advanced := simulation.advanceTo simulation.stop
  { advanced with
    consumers := advanced.consumers.map fun consumer => consumer.expire simulation.stop }

/-- An application cannot go on: its count of time or its content passes every
bound. Neither gets smaller again, so the end of a run shows it. -/
def isOverrun (simulation : Simulation) : Bool :=
  simulation.consumers.any (·.isOverrun) || simulation.producers.any (·.isOverrun)

/-- Runs a simulation to its end, when that takes fewer steps than the budget
has. Over links that take time there is such a budget. Over links without delay
there may be none: in a ring of nodes that send all ways at once, each with a
producer of Data that is never fresh, an Interest for fresh Data goes round and
round while the clock stands. -/
def run? : Nat → Simulation → Option Simulation
  | 0, _ => none
  | budget + 1, simulation =>
    match simulation.step? with
    | some next => run? budget next
    | none => some simulation.conclude

/-- More steps than any machine takes. -/
def budget : Nat := 4611686018427387904

end Simulation

end NamedData
