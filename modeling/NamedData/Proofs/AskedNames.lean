import NamedData.Proofs.Faults
import NamedData.Proofs.Replies
import NamedData.Proofs.RunHistories

namespace NamedData

open Simulation (arrival Driven)

namespace Forwarder

variable {forwarder : Forwarder} {action : Action} {face : FaceId} {packet : Packet}

/-- In a simulation a forwarder makes up no names: what it sends has the name of what has just
come in, or of Data in the store. -/
theorem Sound.name_of_sends (sound : forwarder.Sound) (filed : forwarder.contentStore.Filed)
    (driven : Driven action) (sent : (face, packet) ∈ forwarder.sends action) :
    (∃ source arrived, action = arrival source arrived ∧ arrived.name = packet.name) ∨
      ∃ held, forwarder.contentStore.Holds held ∧ held.name = packet.name := by
  by_cases hands : HandsOut action
  · cases hands with
    | receivesInterest source interest =>
      cases packet with
      | interest request =>
        obtain ⟨packets, emitted⟩ := emitted_receiveInterest sound source interest
        obtain ⟨named, _⟩ := emitted.noted (mem_sends sent emitted.sent)
        refine Or.inl ⟨source, .interest interest, rfl, ?_⟩
        rw [sound.matched.filed.insert_name] at named
        exact named.symm
      | data data =>
        obtain ⟨_, _, held⟩ := sound.cached_of_sent filed sent
        exact Or.inr held
    | receivesData source data =>
      obtain ⟨faces, handed⟩ := sent_receiveData source data
      obtain ⟨_, _, same⟩ := List.mem_map.mp (mem_sends sent handed)
      cases same
      exact Or.inl ⟨source, .data data, rfl, rfl⟩
    | sendsInterest => cases driven with | on on => cases on
    | sendsData => cases driven with | on on => cases on
  · rw [sends_eq_nil hands] at sent
    cases sent

/-- All that a forwarder keeps or has yet to hand over has a name of one kind. -/
structure DealsIn (forwarder : Forwarder) (Asked : Name → Prop) : Prop where
  filed : forwarder.contentStore.Filed
  waits : ∀ out ∈ forwarder.outbox.sent, Asked out.2.name
  holds : ∀ {data : Data}, forwarder.contentStore.Holds data → Asked data.name

variable {Asked : Name → Prop}

theorem DealsIn.act (deals : forwarder.DealsIn Asked) (sound : forwarder.Sound)
    (driven : Driven action)
    (arrives : ∀ source packet, action = arrival source packet → Asked packet.name) :
    (forwarder.act action).DealsIn Asked := by
  refine ⟨sound.cacheFiled_act deals.filed action, fun out waits => ?_, fun {data} holds => ?_⟩
  · by_cases collects : ∃ face wanted, action = .collect face wanted
    · obtain ⟨face, wanted, rfl⟩ := collects
      exact deals.waits out (List.mem_filter.mp waits).1
    · rw [sent_act sound.matched.filed fun face wanted same => collects ⟨face, wanted, same⟩] at waits
      rcases List.mem_append.mp waits with old | new
      · exact deals.waits out old
      · rcases sound.name_of_sends deals.filed driven new with
          ⟨source, arrived, cause, named⟩ | ⟨held, kept, named⟩ <;> rw [← named]
        · exact arrives source arrived cause
        · exact deals.holds kept
  · rcases Steps.holds (act_steps sound.matched.filed action) holds with old | ⟨source, brings, _⟩
    · rw [contentStore_begun] at old
      exact deals.holds old
    · cases brings with
      | answer data => exact arrives source (.data data) rfl
      | unasked => cases driven with | on on => cases on

theorem DealsIn.run (deals : forwarder.DealsIn Asked) (sound : forwarder.Sound)
    {actions : List Action} (driven : ∀ action ∈ actions, Driven action)
    (arrives : ∀ source packet, arrival source packet ∈ actions → Asked packet.name) :
    (forwarder.run actions).DealsIn Asked := by
  induction actions generalizing forwarder with
  | nil => exact deals
  | cons action rest ih =>
    have next := deals.act sound (driven action List.mem_cons_self) fun source packet same =>
      arrives source packet (by rw [same]; exact List.mem_cons_self)
    exact ih next (sound.act action) (fun later member => driven later (List.mem_cons_of_mem _ member))
      fun source packet later => arrives source packet (List.mem_cons_of_mem _ later)

theorem Untouched.dealsIn (untouched : forwarder.Untouched) : forwarder.DealsIn Asked := by
  refine ⟨fun name cached here => ?_, fun out waits => ?_, fun ⟨name, cached, here, _⟩ => ?_⟩
  · rw [untouched.cached, Std.ExtTreeMap.getElem?_empty] at here
    cases here
  · rw [untouched.outbox] at waits
    cases waits
  · rw [untouched.cached, Std.ExtTreeMap.getElem?_empty] at here
    cases here

end Forwarder

theorem Producer.exists_request {producer : Producer} {interests : List Interest} {data : Data}
    (member : data ∈ producer.replies interests) : ∃ interest ∈ interests, interest.name = data.name := by
  obtain ⟨interest, listed, answered⟩ := List.mem_filterMap.mp member
  obtain ⟨⟨reply, served⟩, responds, rfl⟩ := Option.map_eq_some_iff.mp answered
  unfold respond? at responds
  split at responds
  · cases responds
    exact ⟨interest, listed, rfl⟩
  · cases responds

namespace Simulation

open Consumer (Turn)

variable {simulation : Simulation} {place asker : Nat} {move : Move} {face : FaceId}
  {packet : Packet} {Asked : Name → Prop} {data : Data} {now : Instant}

/-- All that is kept anywhere in a simulation, waits or is under way has a name of one kind, and
so has all that the consumers may still ask for. -/
structure DealsIn (simulation : Simulation) (Asked : Name → Prop) : Prop where
  nodes : ∀ {place : Nat} {node : Node}, simulation.nodes[place]? = some node →
    node.forwarder.DealsIn Asked
  flying : ∀ {timer : TimerId} {node : Nat} {face : FaceId} {packet : Packet},
    simulation.timers.running[timer]? = some (.delivery node face packet) → Asked packet.name
  asks : ∀ {asker : Nat} {consumer : Consumer}, simulation.consumers[asker]? = some consumer →
    ∀ number, Asked (consumer.under.appendSequence number)

theorem arrival_ne_collect {other : FaceId} {wanted : Packet → Bool} :
    arrival face packet ≠ .collect other wanted := by
  cases packet <;> exact nofun

theorem arrival_injective {other : FaceId} {arrived : Packet}
    (same : arrival face packet = arrival other arrived) : packet = arrived := by
  cases packet <;> cases arrived <;> cases same <;> rfl

/-- What an event brings to a forwarder has the name of a request of a consumer, or of what was
under way. -/
theorem asked_of_event {event : Event}
    (asks : ∀ {asker : Nat} {consumer : Consumer}, simulation.consumers[asker]? = some consumer →
      ∀ number, Asked (consumer.under.appendSequence number))
    (known : ∀ {node : Nat} {face : FaceId} {packet : Packet},
      event = .delivery node face packet → Asked packet.name)
    (called : arrival face packet ∈ simulation.eventCalls place event) : Asked packet.name := by
  cases event with
  | tick asker =>
    simp only [eventCalls] at called
    split at called
    · cases called
    · rename_i consumer found
      split at called
      · have isRequest : packet = .interest (simulation.request consumer) :=
          arrival_injective (List.mem_singleton.mp called)
        rw [isRequest]
        exact asks found consumer.nextNumber
      · cases called
  | delivery node other arrived =>
    simp only [eventCalls] at called
    split at called
    · rw [arrival_injective (List.mem_singleton.mp called)]
      exact known rfl
    · cases called

/-- The names that come in somewhere were around before. -/
theorem DealsIn.arrives (deals : simulation.DealsIn Asked)
    (called : arrival face packet ∈ simulation.calls place move) : Asked packet.name := by
  cases move with
  | sendOff other linkEnd =>
    simp only [calls] at called
    split at called
    · exact absurd (List.mem_singleton.mp called) arrival_ne_collect
    · cases called
  | feed asker =>
    simp only [calls] at called
    split at called
    · cases called
    · split at called
      · exact absurd (List.mem_singleton.mp called) arrival_ne_collect
      · cases called
  | serve answerer =>
    simp only [calls] at called
    split at called
    · cases called
    · rename_i producer _
      split at called
      · rcases List.mem_cons.mp called with impossible | later
        · exact absurd impossible arrival_ne_collect
        · obtain ⟨reply, given, same⟩ := List.mem_map.mp later
          obtain ⟨interest, requested, named⟩ := Producer.exists_request given
          obtain ⟨node, found, waits⟩ := mem_requestsTo requested
          have isReply : packet = .data reply := arrival_injective same.symm
          rw [isReply]
          show Asked reply.name
          rw [← named]
          exact (deals.nodes found).waits _ waits
      · cases called
  | happen =>
    simp only [calls] at called
    split at called
    · cases called
    · rename_i timer rest popped
      obtain ⟨running, _, _⟩ := Timers.popDue?_eq_some popped
      refine asked_of_event deals.asks (fun event => ?_) called
      rw [event] at running
      exact deals.flying running
  | advance time => rcases mem_calls_advance called with same | same <;> cases packet <;> cases same
  | giveUp time => cases called

theorem mem_queueAt (queued : packet ∈ simulation.queueAt place face) :
    ∃ node, simulation.nodes[place]? = some node ∧ (face, packet) ∈ node.forwarder.outbox.sent := by
  rw [queueAt] at queued
  cases found : simulation.nodes[place]? with
  | none =>
    rw [found] at queued
    cases queued
  | some node =>
    rw [found] at queued
    exact ⟨node, rfl, Outbox.mem_queue.mp queued⟩

theorem DealsIn.perform (deals : simulation.DealsIn Asked) (orderly : simulation.Orderly)
    (move : Move) : (simulation.perform move).DealsIn Asked := by
  refine ⟨fun {place node} found => ?_, fun {timer node face packet} running => ?_,
    fun {asker consumer} found number => ?_⟩
  · rw [nodes_perform] at found
    obtain ⟨old, atPlace, rfl⟩ := Option.map_eq_some_iff.mp found
    exact (deals.nodes atPlace).run (orderly.sound atPlace) (fun _ => driven_of_calls)
      fun _ _ => deals.arrives
  · rw [timers_perform] at running
    rcases Timers.running_scheduleAll running with old | ⟨delay, set, _⟩
    · exact deals.flying (running_leftBy old)
    · obtain ⟨place, linkEnd, _, _, _, _, queued⟩ := scheduled_delivery set
      obtain ⟨here, atPlace, waits⟩ := mem_queueAt queued
      exact (deals.nodes atPlace).waits _ waits
  · rw [consumers_perform] at found
    obtain ⟨old, atPlace, rfl⟩ := Option.map_eq_some_iff.mp found
    rw [(kept_follow old _).2.2.1]
    exact deals.asks atPlace number

/-- What a consumer takes in has such a name too. -/
theorem DealsIn.named (deals : simulation.DealsIn Asked)
    (received : .receive data now ∈ simulation.turns asker move) : Asked data.name := by
  cases move with
  | feed place =>
    simp only [turns] at received
    split at received
    · cases received
    · split at received
      · obtain ⟨reply, replied, same⟩ := List.mem_map.mp received
        cases same
        obtain ⟨node, found, waits⟩ := mem_repliesTo replied
        exact (deals.nodes found).waits _ waits
      · cases received
  | happen =>
    simp only [turns] at received
    split at received
    · cases received
    · rename_i timer rest popped
      cases event : timer.payload with
      | tick other =>
        rw [event, eventTurns] at received
        split at received
        · simp at received
        · cases received
      | delivery =>
        rw [event] at received
        cases received
  | giveUp time => cases List.mem_singleton.mp received
  | _ => cases received

theorem DealsIn.named_of_turnsOf (deals : simulation.DealsIn Asked) (orderly : simulation.Orderly)
    {moves : List Move} (allowed : Along Allowed simulation moves)
    (received : .receive data now ∈ turnsOf asker simulation moves) : Asked data.name := by
  induction moves generalizing simulation with
  | nil => cases received
  | cons move rest ih =>
    rcases List.mem_append.mp received with here | later
    · exact deals.named here
    · exact ih (deals.perform orderly move) (orderly.perform allowed.1) allowed.2 later

/-- A name that a consumer may ask for at some time. -/
def MayBeAsked (consumers : List Consumer) (name : Name) : Prop :=
  ∃ consumer ∈ consumers, ∃ number, name = consumer.under.appendSequence number

variable {scenario : Scenario} {links : List LinkSetting} {asking : List ConsumerSetting}

theorem SetUp.dealsIn (setUp : SetUp scenario links asking simulation) :
    simulation.DealsIn (MayBeAsked simulation.consumers) where
  nodes found := (setUp.untouched (by rw [Simulation.forwarderAt?, found]; rfl)).dealsIn
  flying running := by
    obtain ⟨_, same⟩ := setUp.ticks running
    cases same
  asks found number := ⟨_, List.mem_of_getElem? found, number, rfl⟩

/-- In a run no names are around but those that consumers ask for. -/
theorem SetUp.mayBeAsked (setUp : SetUp scenario links asking simulation) {budget : Nat}
    (received : .receive data now ∈ turnsOf asker simulation (simulation.moves budget)) :
    MayBeAsked simulation.consumers data.name :=
  setUp.dealsIn.named_of_turnsOf setUp.orderly (allowed_moves setUp.settled budget) received

end Simulation

end NamedData
