import NamedData.Binary64
import NamedData.Binary64.Decimal
import NamedData.CommandLine
import NamedData.CommandLine.Outcome
import NamedData.ContentStore
import NamedData.Counters
import NamedData.DeadNonceList
import NamedData.Document
import NamedData.Document.Folder
import NamedData.Document.Load
import NamedData.Face
import NamedData.Fib
import NamedData.Forwarder.Outbox
import NamedData.Forwarder.Receiving
import NamedData.Forwarder.Sending
import NamedData.Forwarder.Settling
import NamedData.Forwarder.State
import NamedData.Json.Number
import NamedData.Json.Reader
import NamedData.Json.Writer
import NamedData.Main
import NamedData.Name
import NamedData.Name.Uri
import NamedData.NameTable
import NamedData.Nonce
import NamedData.Packet
import NamedData.Packet.Format
import NamedData.Pit
import NamedData.Scenario
import NamedData.Scenario.Format
import NamedData.Settings
import NamedData.Settings.Format
import NamedData.Simulation.Applications
import NamedData.Simulation.Exchange
import NamedData.Simulation.Report
import NamedData.Simulation.Run
import NamedData.Simulation.Setup
import NamedData.Strategy
import NamedData.Text.Hidden
import NamedData.Text.Quoted
import NamedData.Time
import NamedData.Timers
import NamedData.Timers.Lazy
import NamedData.Toml.Reader
import NamedData.Toml.Scalar
import NamedData.Toml.Writer
import NamedData.Proofs.PendingTable
import NamedData.Proofs.Actions
import NamedData.Proofs.TimerQueue
import NamedData.Proofs.TimerSlots
import NamedData.Proofs.EntryRecords
import NamedData.Proofs.Upkeep
import NamedData.Proofs.Reception
import NamedData.Proofs.Departure
import NamedData.Proofs.Settlement
import NamedData.Proofs.Soundness
import NamedData.Proofs.TimerOwnership
import NamedData.Proofs.FanOut
import NamedData.Proofs.EntryChanges
import NamedData.Proofs.Waiting
import NamedData.Proofs.WaitHistory
import NamedData.Proofs.Asking
import NamedData.Proofs.Handouts
import NamedData.Proofs.NonceMemory
import NamedData.Proofs.LoopSuppression
import NamedData.Proofs.Steps
import NamedData.Proofs.Footprint
import NamedData.Proofs.EntrySteps
import NamedData.Proofs.NextHops
import NamedData.Proofs.Bookkeeping
import NamedData.Proofs.HostScope
import NamedData.Proofs.Aggregation
import NamedData.Proofs.NonceCapacity
import NamedData.Proofs.TimeSlices
import NamedData.Proofs.Forwarding
import NamedData.Proofs.FlowBalance
import NamedData.Proofs.LocalHop
import NamedData.Proofs.Rejection
import NamedData.Proofs.TimerRefinement
import NamedData.Proofs.TimerList
import NamedData.Proofs.LazyTimers
import NamedData.Proofs.EntryEnds
import NamedData.Proofs.Moves
import NamedData.Proofs.Calls
import NamedData.Proofs.Layout
import NamedData.Proofs.Pumping
import NamedData.Proofs.EventQueue
import NamedData.Proofs.RunOrder
import NamedData.Proofs.Validity
import NamedData.Proofs.Setup
import NamedData.Proofs.LinkTransit
import NamedData.Proofs.ConsumerAccounts
import NamedData.Proofs.NameSearch
import NamedData.Proofs.CacheLookup
import NamedData.Proofs.CacheEviction
import NamedData.Proofs.Replies
import NamedData.Proofs.Punctuality
import NamedData.Proofs.RoundTrips
import NamedData.Proofs.Consultation
import NamedData.Proofs.Strategies
import NamedData.Proofs.RouteFaces
import NamedData.Proofs.Counting
import NamedData.Proofs.Origins
import NamedData.Proofs.CacheHits
import NamedData.Proofs.WaitTimers
import NamedData.Proofs.Relaying
import NamedData.Proofs.OnBehalf
import NamedData.Proofs.RunEvaluation
import NamedData.Proofs.Faults
import NamedData.Proofs.StopTimes
import NamedData.Proofs.RunHistories
import NamedData.Proofs.LongerRuns
import NamedData.Proofs.NameUris
import NamedData.Proofs.NonceRetention
import NamedData.Proofs.RouteMap
import NamedData.Proofs.OutgoingCalls
import NamedData.Proofs.UriGrammar
import NamedData.Proofs.PacketFormat
import NamedData.Proofs.CacheOrigins
import NamedData.Proofs.AskedNames
import NamedData.Proofs.Recognition
import NamedData.Proofs.DataMatches
import NamedData.Proofs.DocumentNumbers
import NamedData.Proofs.StrategyMap
import NamedData.Proofs.Rounding
import NamedData.Proofs.Intervals
import NamedData.Proofs.SetupParts
import NamedData.Proofs.Ticks
import NamedData.Proofs.RunEnds
import NamedData.Proofs.ProducerRoutes
import NamedData.Proofs.Answering
