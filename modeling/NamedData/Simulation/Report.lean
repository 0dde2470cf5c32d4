import NamedData.Document
import NamedData.Binary64.Decimal
import NamedData.Counters
import NamedData.Name.Uri
import NamedData.Simulation.Run

namespace NamedData

structure NodeReport where
  node : String
  counters : Counters
  pitEntries : Nat
  cacheEntries : Nat

structure ConsumerReport where
  node : String
  under : Name
  start : Instant
  sent : Nat
  satisfied : Nat
  timedOut : Nat
  averageWait : Option Duration

structure ProducerReport where
  node : String
  under : Name
  served : Nat

/-- What a simulation has come to. -/
structure Report where
  duration : Duration
  nodes : List NodeReport
  consumers : List ConsumerReport
  producers : List ProducerReport

namespace Simulation

def nodeName (simulation : Simulation) (place : Nat) : String :=
  (simulation.nodes[place]?.map (·.name)).getD ""

def report (simulation : Simulation) : Report where
  duration := simulation.stop
  nodes := simulation.nodes.map fun node =>
    { node := node.name
      counters := node.forwarder.counters
      pitEntries := node.forwarder.pit.size
      cacheEntries := node.forwarder.contentStore.size }
  consumers := simulation.consumers.map fun consumer =>
    { node := simulation.nodeName consumer.node
      under := consumer.under
      start := consumer.start
      sent := consumer.sent
      satisfied := consumer.satisfied
      timedOut := consumer.timedOut
      averageWait := consumer.averageWait? }
  producers := simulation.producers.map fun producer =>
    { node := simulation.nodeName producer.node
      under := producer.under
      served := producer.served }

end Simulation

/-- A wait in milliseconds: a thousandth of its whole microseconds. -/
def waitMillis (wait : Duration) : Binary64 :=
  (Binary64.ofNat wait.wholeMicros).div (Binary64.ofNat 1000)

def Counters.toDocument (counters : Counters) : Document :=
  .table (counters.fields.map fun field => (field.1, .integer field.2))

def NodeReport.toDocument (report : NodeReport) : Document :=
  .table [
    ("name", .text report.node),
    ("counters", report.counters.toDocument),
    ("pit_entries", .integer report.pitEntries),
    ("cs_entries", .integer report.cacheEntries)]

def ConsumerReport.toDocument (report : ConsumerReport) : Document :=
  .table [
    ("node", .text report.node),
    ("prefix", .text report.under.toUri),
    ("start_ms", .integer report.start.wholeMillis),
    ("sent", .integer report.sent),
    ("satisfied", .integer report.satisfied),
    ("timed_out", .integer report.timedOut),
    ("average_rtt_ms",
      match report.averageWait with
      | some wait => .float (waitMillis wait)
      | none => .null)]

def ProducerReport.toDocument (report : ProducerReport) : Document :=
  .table [
    ("node", .text report.node),
    ("prefix", .text report.under.toUri),
    ("served", .integer report.served)]

namespace Report

def toDocument (report : Report) : Document :=
  .table [
    ("duration_ms", .integer report.duration.wholeMillis),
    ("nodes", .sequence (report.nodes.map NodeReport.toDocument)),
    ("consumers", .sequence (report.consumers.map ConsumerReport.toDocument)),
    ("producers", .sequence (report.producers.map ProducerReport.toDocument))]

/-- Pads a text with blanks behind it. -/
def leftAligned (width : Nat) (text : String) : String :=
  text ++ String.ofList (List.replicate (width - text.length) ' ')

/-- Pads a text with blanks before it. -/
def rightAligned (width : Nat) (text : String) : String :=
  String.ofList (List.replicate (width - text.length) ' ') ++ text

/-- A label with a number behind it. -/
def column (label : String) (width value : Nat) : String :=
  label ++ " " ++ rightAligned width (toString value)

def nodeLine (report : NodeReport) : String :=
  let counters := report.counters
  "  " ++ leftAligned 12 report.node ++ " " ++
    String.intercalate "  " [
      column "in-int" 6 counters.inInterests,
      column "out-int" 6 counters.outInterests,
      column "in-data" 6 counters.inData,
      column "out-data" 6 counters.outData,
      column "loops" 4 counters.interestLoops,
      "cs-hit " ++ rightAligned 5 counters.cacheHitPercent.tenthsText ++ "%",
      column "pit" 4 report.pitEntries,
      column "cs" 4 report.cacheEntries]

def waitText : Option Duration → String
  | some wait => (waitMillis wait).tenthsText ++ "ms"
  | none => "-"

def consumerLine (report : ConsumerReport) : String :=
  "  " ++ report.under.toUri ++ " on " ++ report.node ++
    ": sent " ++ toString report.sent ++
    ", satisfied " ++ toString report.satisfied ++
    ", timed out " ++ toString report.timedOut ++
    ", avg rtt " ++ waitText report.averageWait

def producerLine (report : ProducerReport) : String :=
  "  " ++ report.under.toUri ++ " on " ++ report.node ++ ": served " ++ toString report.served

/-- The report as lines of text. -/
def lines (report : Report) : List String :=
  ["Simulation Results", "==================",
    "Duration: " ++ toString report.duration.wholeMillis ++ "ms"] ++
  ["", "Nodes:"] ++ report.nodes.map nodeLine ++
  ["", "Consumers:"] ++ report.consumers.map consumerLine ++
  ["", "Producers:"] ++ report.producers.map producerLine

def toText (report : Report) : String := String.join (report.lines.map (· ++ "\n"))

end Report

end NamedData
