import NamedData.Scenario

namespace NamedData

open Document (wordLimit halfLimit)

def NodeSetting.ofDocument? (surplus : Bool) (document : Document) : Option NodeSetting := do
  let members ← document.members? surplus ["name", "address"]
  let name ← members.required "name" Document.text?
  let address ← members.optional "address" Document.text?
  return { name, address }

def LinkSetting.ofDocument? (surplus : Bool) (document : Document) : Option LinkSetting := do
  let members ← document.members? surplus ["a", "b", "delay_ms"]
  let a ← members.required "a" Document.text?
  let b ← members.required "b" Document.text?
  let delay ← members.withDefault "delay_ms" 10 (Document.natural? wordLimit)
  return { a, b, delay }

def RouteSetting.ofDocument? (surplus : Bool) (document : Document) : Option RouteSetting := do
  let members ← document.members? surplus ["node", "prefix", "next_hop", "cost", "target_hint"]
  let node ← members.required "node" Document.text?
  let under ← members.required "prefix" Document.text?
  let nextHop ← members.required "next_hop" Document.text?
  let cost ← members.withDefault "cost" 0 (Document.natural? halfLimit)
  let targetHint ← members.optional "target_hint" Document.text?
  return { node, under, nextHop, cost := UInt32.ofNat cost, targetHint }

def ConsumerSetting.ofDocument? (surplus : Bool) (document : Document) :
    Option ConsumerSetting := do
  let members ← document.members? surplus
    ["node", "prefix", "frequency", "lifetime_ms", "must_be_fresh", "start_ms"]
  let node ← members.required "node" Document.text?
  let under ← members.required "prefix" Document.text?
  let frequency ← members.withDefault "frequency" (Binary64.ofNat 10) Document.float?
  let lifetime ← members.withDefault "lifetime_ms" 2000 (Document.natural? wordLimit)
  let mustBeFresh ← members.withDefault "must_be_fresh" false Document.boolean?
  let start ← members.withDefault "start_ms" 0 (Document.natural? wordLimit)
  return { node, under, frequency, lifetime, mustBeFresh, start }

def ProducerSetting.ofDocument? (surplus : Bool) (document : Document) :
    Option ProducerSetting := do
  let members ← document.members? surplus ["node", "prefix", "payload_size", "freshness_ms"]
  let node ← members.required "node" Document.text?
  let under ← members.required "prefix" Document.text?
  let payloadSize ← members.withDefault "payload_size" 1024 (Document.natural? wordLimit)
  let freshness ← members.optionalInTable "freshness_ms" (Document.natural? wordLimit)
  return { node, under, payloadSize, freshness }

def NodeSetting.toDocument (node : NodeSetting) : Document :=
  .table [
    ("name", .text node.name),
    ("address", Document.ofOption .text node.address)]

def LinkSetting.toDocument (link : LinkSetting) : Document :=
  .table [
    ("a", .text link.a),
    ("b", .text link.b),
    ("delay_ms", .integer link.delay)]

def RouteSetting.toDocument (route : RouteSetting) : Document :=
  .table [
    ("node", .text route.node),
    ("prefix", .text route.under),
    ("next_hop", .text route.nextHop),
    ("cost", .integer route.cost.toNat),
    ("target_hint", Document.ofOption .text route.targetHint)]

def ConsumerSetting.toDocument (consumer : ConsumerSetting) : Document :=
  .table [
    ("node", .text consumer.node),
    ("prefix", .text consumer.under),
    ("frequency", .float consumer.frequency),
    ("lifetime_ms", .integer consumer.lifetime),
    ("must_be_fresh", .boolean consumer.mustBeFresh),
    ("start_ms", .integer consumer.start)]

def ProducerSetting.toDocument (producer : ProducerSetting) : Document :=
  .table [
    ("node", .text producer.node),
    ("prefix", .text producer.under),
    ("payload_size", .integer producer.payloadSize),
    ("freshness_ms", Document.ofOption (fun period => .integer period) producer.freshness)]

namespace Scenario

/-- Writes a scenario with everything spelled out. -/
def toDocument (scenario : Scenario) : Document :=
  .table [
    ("duration_ms", .integer scenario.duration),
    ("forwarder", scenario.forwarder.toDocument),
    ("nodes", .sequence (scenario.nodes.map NodeSetting.toDocument)),
    ("links", .sequence (scenario.links.map LinkSetting.toDocument)),
    ("routes", .sequence (scenario.routes.map RouteSetting.toDocument)),
    ("consumers", .sequence (scenario.consumers.map ConsumerSetting.toDocument)),
    ("producers", .sequence (scenario.producers.map ProducerSetting.toDocument))]

/-- Reads a scenario. Only the nodes have to be given. -/
def ofDocument? (surplus : Bool) (document : Document) : Option Scenario := do
  let members ← document.members? surplus
    ["duration_ms", "forwarder", "nodes", "links", "routes", "consumers", "producers"]
  let duration ← members.withDefault "duration_ms" 10000 (Document.natural? wordLimit)
  let forwarder ← members.withDefault "forwarder" Settings.standard (Settings.ofDocument? surplus)
  let nodes ← members.required "nodes" (Document.listOf? (NodeSetting.ofDocument? surplus))
  let links ← members.withDefault "links" []
    (Document.listOf? (LinkSetting.ofDocument? surplus))
  let routes ← members.withDefault "routes" []
    (Document.listOf? (RouteSetting.ofDocument? surplus))
  let consumers ← members.withDefault "consumers" []
    (Document.listOf? (ConsumerSetting.ofDocument? surplus))
  let producers ← members.withDefault "producers" []
    (Document.listOf? (ProducerSetting.ofDocument? surplus))
  return { duration, forwarder, nodes, links, routes, consumers, producers }

/-- Reads a scenario from TOML and checks it. -/
def ofToml (text : String) : Except (LoadError ScenarioError) Scenario :=
  match (Toml.ofText? text).bind (ofDocument? true) with
  | none => .error .malformed
  | some scenario =>
    match scenario.check with
    | .ok _ => .ok scenario
    | .error cause => .error (.refused cause)

/-- Loads a scenario from a file, which has to be there. -/
def load : TextFile → Except (LoadError ScenarioError) Scenario
  | .missing => .error .noText
  | .unreadable => .error .noText
  | .text content => ofToml content

end Scenario

end NamedData
