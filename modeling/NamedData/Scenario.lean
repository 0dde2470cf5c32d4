import NamedData.Fib
import NamedData.Settings
import NamedData.Settings.Format

namespace NamedData

structure NodeSetting where
  name : String
  /-- The address of the node's ends of links. -/
  address : Option String := none

/-- A link joins two nodes both ways. The delay is in milliseconds. -/
structure LinkSetting where
  a : String
  b : String
  delay : Nat := 10

/-- A route of a node towards a neighbour. -/
structure RouteSetting where
  node : String
  under : String
  nextHop : String
  cost : Cost := 0
  targetHint : Option String := none

/-- An application that asks, a number of times a second. -/
structure ConsumerSetting where
  node : String
  under : String
  frequency : Binary64 := Binary64.ofNat 10
  lifetime : Nat := 2000
  mustBeFresh : Bool := false
  start : Nat := 0

/-- An application that answers. -/
structure ProducerSetting where
  node : String
  under : String
  payloadSize : Nat := 1024
  freshness : Option Nat := none

/-- What is to be simulated: nodes, links between them, routes, applications,
and for how many milliseconds. -/
structure Scenario where
  duration : Nat := 10000
  forwarder : Settings := {}
  nodes : List NodeSetting
  links : List LinkSetting := []
  routes : List RouteSetting := []
  consumers : List ConsumerSetting := []
  producers : List ProducerSetting := []

/-- Why a scenario is refused. -/
inductive ScenarioError where
  | settings (error : SettingsError)
  | duplicateNode (node : String)
  | unknownNode (node : String)
  | selfLink (node : String)
  | badPrefix (under : String) (error : Name.UriError)
  | notNeighbour (under node nextHop : String)
  | badFrequency (node : String)
  deriving DecidableEq

namespace ScenarioError

def message : ScenarioError → String
  | settings error => error.message
  | duplicateNode node => "duplicate node " ++ Text.quoted node
  | unknownNode node => "unknown node " ++ Text.quoted node
  | selfLink node => "link from " ++ Text.quoted node ++ " to itself"
  | badPrefix under error => "prefix " ++ Text.quoted under ++ ": " ++ error.message
  | notNeighbour under node nextHop =>
    "route " ++ under ++ " on " ++ Text.quoted node ++ ": " ++ Text.quoted nextHop ++
      " is not a neighbour"
  | badFrequency node =>
    "consumer on " ++ Text.quoted node ++ ": frequency must be in (0, 1000000]"

def report (error : ScenarioError) : String := "Invalid configuration: " ++ error.message

end ScenarioError

/-- The time between two Interests of a consumer, to the nearest nanosecond. A
frequency so low that no span is long enough has none. -/
def ConsumerSetting.interval? (consumer : ConsumerSetting) : Option Duration :=
  match (Binary64.ofNat 1).div consumer.frequency with
  | .finite false significand exponent =>
    let nanos := Binary64.roundQuotient (significand * Binary64.twoTo exponent * 1000000000)
      (Binary64.twoTo 1074)
    if nanos ≤ Duration.longest then some (Duration.ofNanos nanos) else none
  | .finite true 0 _ => some Duration.zero
  | _ => none

def parsePrefix (under : String) : Except ScenarioError Name :=
  match Name.ofUri under with
  | .ok name => .ok name
  | .error error => .error (.badPrefix under error)

namespace Scenario

/-- Finds the first node that has the name of an earlier one. -/
def firstDuplicate? (seen : List String) : List String → Option String
  | [] => none
  | name :: rest => if seen.contains name then some name else firstDuplicate? (name :: seen) rest

def knows (scenario : Scenario) (node : String) : Bool :=
  scenario.nodes.any (·.name == node)

def checkNode (scenario : Scenario) (node : String) : Except ScenarioError Unit :=
  if scenario.knows node then .ok () else .error (.unknownNode node)

def areNeighbours (scenario : Scenario) (a b : String) : Bool :=
  scenario.links.any fun link => (link.a == a && link.b == b) || (link.a == b && link.b == a)

def checkLink (scenario : Scenario) (link : LinkSetting) : Except ScenarioError Unit := do
  scenario.checkNode link.a
  scenario.checkNode link.b
  if link.a = link.b then .error (.selfLink link.a) else .ok ()

def checkRoute (scenario : Scenario) (route : RouteSetting) : Except ScenarioError Unit := do
  scenario.checkNode route.node
  let _ ← parsePrefix route.under
  if scenario.areNeighbours route.node route.nextHop then .ok ()
  else .error (.notNeighbour route.under route.node route.nextHop)

def checkConsumer (scenario : Scenario) (consumer : ConsumerSetting) :
    Except ScenarioError Unit := do
  scenario.checkNode consumer.node
  let _ ← parsePrefix consumer.under
  if consumer.frequency.isPositiveUpTo 1000000 then .ok ()
  else .error (.badFrequency consumer.node)

def checkProducer (scenario : Scenario) (producer : ProducerSetting) :
    Except ScenarioError Unit := do
  scenario.checkNode producer.node
  let _ ← parsePrefix producer.under
  .ok ()

/-- Checks a scenario, part by part in the order they are listed. -/
def check (scenario : Scenario) : Except ScenarioError Unit := do
  match scenario.forwarder.check with
  | .ok _ => .ok ()
  | .error error => .error (.settings error)
  match firstDuplicate? [] (scenario.nodes.map (·.name)) with
  | some node => .error (.duplicateNode node)
  | none => .ok ()
  scenario.links.forM scenario.checkLink
  scenario.routes.forM scenario.checkRoute
  scenario.consumers.forM scenario.checkConsumer
  scenario.producers.forM scenario.checkProducer

end Scenario

end NamedData
