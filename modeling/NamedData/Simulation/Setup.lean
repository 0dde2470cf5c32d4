import NamedData.Scenario
import NamedData.Simulation.Run

namespace NamedData

/-- Why a scenario could not be set up. -/
inductive SetupError where
  | forwarder (node : String) (error : StrategyError)
  | unknownNode (node : String)
  | noLink (node nextHop : String)
  | badPrefix (error : ScenarioError)
  /-- The consumer asks so seldom that no span is long enough. -/
  | noInterval (node : String)
  deriving DecidableEq

namespace SetupError

/-- What went wrong, then what it came from. -/
def causes : SetupError → List String
  | forwarder node (.badName error) =>
    ["failed to create forwarder for " ++ node, (StrategyError.badName error).message,
      error.message]
  | forwarder node (.unknown strategy) =>
    ["failed to create forwarder for " ++ node, (StrategyError.unknown strategy).message]
  | unknownNode node => ["unknown node " ++ node]
  | noLink node nextHop => ["no link from " ++ node ++ " to " ++ nextHop]
  | badPrefix error => [error.report]
  | noInterval node => ["consumer on " ++ node ++ ": interval too long"]

def message (error : SetupError) : String := String.intercalate ": " error.causes

end SetupError

/-- The place of the node of a name. Of several it is the last. -/
def Scenario.place? (scenario : Scenario) (node : String) : Option Nat :=
  (List.range scenario.nodes.length).reverse.find? fun place =>
    scenario.nodes[place]?.any (·.name == node)

def Scenario.findNode (scenario : Scenario) (node : String) : Except SetupError Nat :=
  match scenario.place? node with
  | some place => .ok place
  | none => .error (.unknownNode node)

def findPrefix (under : String) : Except SetupError Name :=
  match parsePrefix under with
  | .ok name => .ok name
  | .error error => .error (.badPrefix error)

namespace Simulation

def Node.ofSetting (settings : Settings) (nonces : NonceSource) (setting : NodeSetting) :
    Except SetupError Node :=
  match Forwarder.ofSettings settings nonces with
  | .ok forwarder => .ok { name := setting.name, forwarder }
  | .error error => .error (.forwarder setting.name error)

/-- The face of a node towards a neighbour. Of several links the first counts. -/
def Node.faceTowards? (node : Node) (neighbour : Nat) : Option FaceId :=
  (node.linkEnds.find? (·.peerNode == neighbour)).map (·.face)

/-- Adds a face to the node at a place. -/
def addFace (simulation : Simulation) (place : Nat) (face : Face) : FaceId × Simulation :=
  match simulation.nodes[place]? with
  | none => (.invalid, simulation)
  | some node =>
    let (id, forwarder) := node.forwarder.addFace face
    (id, { simulation with nodes := simulation.nodes.set place { node with forwarder } })

def addLinkEnd (simulation : Simulation) (place : Nat) (linkEnd : LinkEnd) : Simulation :=
  { simulation with
    nodes := simulation.nodes.modify place fun node =>
      { node with linkEnds := node.linkEnds ++ [linkEnd] } }

/-- Adds a link, which is a face on either node. -/
def addLink (scenario : Scenario) (simulation : Simulation) (link : LinkSetting) :
    Except SetupError Simulation := do
  let a ← scenario.findNode link.a
  let b ← scenario.findNode link.b
  let address (place : Nat) := scenario.nodes[place]?.bind (·.address)
  let delay := Duration.ofMillis link.delay
  let (faceA, simulation) := simulation.addFace a
    { isLocal := false, label := some (link.a ++ "->" ++ link.b), address := address a }
  let (faceB, simulation) := simulation.addFace b
    { isLocal := false, label := some (link.b ++ "->" ++ link.a), address := address b }
  let endA : LinkEnd := { face := faceA, peerNode := b, peerFace := faceB, delay }
  let endB : LinkEnd := { face := faceB, peerNode := a, peerFace := faceA, delay }
  return (simulation.addLinkEnd a endA).addLinkEnd b endB

def addRoute (scenario : Scenario) (simulation : Simulation) (route : RouteSetting) :
    Except SetupError Simulation := do
  let node ← scenario.findNode route.node
  let neighbour ← scenario.findNode route.nextHop
  match simulation.nodes[node]?.bind (·.faceTowards? neighbour) with
  | none => .error (.noLink route.node route.nextHop)
  | some face =>
    let under ← findPrefix route.under
    return simulation.updateNode node fun forwarder =>
      forwarder.addRoute under { face, cost := route.cost, targetHint := route.targetHint }

/-- Adds a producer behind a local face, and the route to it. -/
def addProducer (scenario : Scenario) (simulation : Simulation) (setting : ProducerSetting) :
    Except SetupError Simulation := do
  let node ← scenario.findNode setting.node
  let under ← findPrefix setting.under
  let (face, simulation) := simulation.addFace node
    { isLocal := true, label := some ("producer " ++ under.toUri) }
  let routed := simulation.updateNode node fun forwarder =>
    forwarder.addRoute under { face, cost := 0 }
  return { routed with
    producers := routed.producers ++
      [.start node face under setting.payloadSize (setting.freshness.map Duration.ofMillis)] }

/-- Adds a consumer behind a local face, and its first turn to ask. -/
def addConsumer (scenario : Scenario) (simulation : Simulation) (setting : ConsumerSetting) :
    Except SetupError Simulation := do
  let node ← scenario.findNode setting.node
  let under ← findPrefix setting.under
  match setting.interval? with
  | none => .error (.noInterval setting.node)
  | some interval =>
    let start := Duration.ofMillis setting.start
    let (face, simulation) := simulation.addFace node
      { isLocal := true, label := some ("consumer " ++ under.toUri) }
    return { simulation with
      timers := (simulation.timers.scheduleAt start (.tick simulation.consumers.length)).2
      consumers := simulation.consumers ++ [{
        node, face, under, interval, start
        lifetime := Duration.ofMillis setting.lifetime
        mustBeFresh := setting.mustBeFresh }] }

/-- Sets a scenario up: the nodes first, then what joins them, then the
applications. -/
def ofScenario (scenario : Scenario) (nonces : NonceSource) : Except SetupError Simulation := do
  let nodes ← scenario.nodes.mapM (Node.ofSetting scenario.forwarder nonces)
  let bare : Simulation := { stop := Duration.ofMillis scenario.duration, nodes, nonces }
  let linked ← scenario.links.foldlM (addLink scenario) bare
  let routed ← scenario.routes.foldlM (addRoute scenario) linked
  let producing ← scenario.producers.foldlM (addProducer scenario) routed
  scenario.consumers.foldlM (addConsumer scenario) producing

end Simulation

end NamedData
