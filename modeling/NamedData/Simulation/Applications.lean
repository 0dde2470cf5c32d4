import NamedData.NameTable
import NamedData.Nonce

namespace NamedData

/-- An application that asks for one Data after another at a steady pace. -/
structure Consumer where
  /-- The place of its node among the nodes. -/
  node : Nat
  face : FaceId
  under : Name
  interval : Duration
  lifetime : Duration
  mustBeFresh : Bool
  start : Instant
  nextNumber : Nat := 0
  /-- What was asked for and not yet answered, with the time of asking. -/
  pending : NameTable Instant := ∅
  sent : Nat := 0
  satisfied : Nat := 0
  timedOut : Nat := 0
  /-- The time all answers took together, in nanoseconds. -/
  waited : Nat := 0

namespace Consumer

/-- The mean time an answer took, while a 32-bit number counts the answers. -/
def averageWait? (consumer : Consumer) : Option Duration :=
  if consumer.satisfied = 0 ∨ 4294967295 < consumer.satisfied then none
  else some (Duration.ofNanos (consumer.waited / consumer.satisfied))

/-- The answers took longer together than any span of time lasts, and there is
no keeping count of it. -/
def isOverrun (consumer : Consumer) : Bool := Duration.longest < consumer.waited

/-- Asks for the next Data of the sequence. -/
def issue (consumer : Consumer) (now : Instant) (nonce : Nonce) : Interest × Consumer :=
  let name := consumer.under.appendSequence consumer.nextNumber
  ({ name, nonce, mustBeFresh := consumer.mustBeFresh, lifetime := some consumer.lifetime },
    { consumer with
      nextNumber := consumer.nextNumber + 1
      pending := consumer.pending.insert name now
      sent := consumer.sent + 1 })

/-- Takes Data in. It answers the request of exactly its name. -/
def receive (consumer : Consumer) (data : Data) (now : Instant) : Consumer :=
  match consumer.pending[data.name]? with
  | some asked => { consumer with
      pending := consumer.pending.erase data.name
      satisfied := consumer.satisfied + 1
      waited := consumer.waited + (now - asked).nanos }
  | none => consumer

/-- What was asked for longer ago than the lifetime. -/
def overdue (consumer : Consumer) (now : Instant) : List Name :=
  consumer.pending.foldl (fun late name asked =>
    if now < asked + consumer.lifetime then late else name :: late) []

/-- Gives up the requests whose lifetime has passed. -/
def expire (consumer : Consumer) (now : Instant) : Consumer :=
  let late := consumer.overdue now
  { consumer with
    pending := late.foldl (fun pending name => pending.erase name) consumer.pending
    timedOut := consumer.timedOut + late.length }

end Consumer

/-- An application that answers every Interest under a prefix with Data of one
content. -/
structure Producer where
  /-- The place of its node among the nodes. -/
  node : Nat
  face : FaceId
  under : Name
  payloadSize : Nat
  /-- The content, made once and only when it is asked for. -/
  payload : Thunk (List UInt8)
  freshness : Option Duration
  served : Nat := 0

namespace Producer

/-- No content holds more bytes than this. -/
def largestPayload : Nat := 9223372036854775807

/-- Content that is as many zeros as asked for, or empty when that is more than
any content holds. -/
def zeros (size : Nat) : Thunk (List UInt8) :=
  ⟨fun _ => List.replicate (if size ≤ largestPayload then size else 0) 0⟩

/-- A producer at its start. -/
def start (node : Nat) (face : FaceId) (under : Name) (payloadSize : Nat)
    (freshness : Option Duration) : Producer :=
  { node, face, under, payloadSize, freshness, payload := zeros payloadSize }

/-- It was asked for content that cannot be made. -/
def isOverrun (producer : Producer) : Bool :=
  0 < producer.served && largestPayload < producer.payloadSize

def respond? (producer : Producer) (interest : Interest) : Option (Data × Producer) :=
  if producer.under.isPrefixOf interest.name then
    let { payload, freshness, served, .. } := producer
    some ({ name := interest.name, content := payload.get, freshness },
      { producer with served := served + 1 })
  else none

end Producer

end NamedData
