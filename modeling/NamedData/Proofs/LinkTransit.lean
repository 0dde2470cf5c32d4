import NamedData.Proofs.EntrySteps
import NamedData.Proofs.RunEvaluation
import NamedData.Proofs.Setup

namespace NamedData

theorem Duration.add_le_add_right {earlier later : Duration} (passed : earlier ≤ later)
    (delay : Duration) : earlier + delay ≤ later + delay := by
  rw [Duration.le_def] at passed ⊢
  rw [Duration.nanos_add, Duration.nanos_add]
  omega

namespace Forwarder

variable {forwarder : Forwarder} {action : Action} {face : FaceId}

/-- The packets that actions hand to a face. -/
def puts (face : FaceId) : Forwarder → List Action → List Packet
  | _, [] => []
  | forwarder, action :: rest =>
    ((forwarder.sends action).filter (·.1 == face)).map (·.2) ++
      puts face (forwarder.act action) rest

/-- What an action hands out goes to the end of the outbox. -/
theorem sent_act (filed : forwarder.pit.Filed)
    (keeps : ∀ face wanted, action ≠ .collect face wanted) :
    (forwarder.act action).outbox.sent = forwarder.outbox.sent ++ forwarder.sends action := by
  obtain ⟨packets, gained, _⟩ := Steps.gives (act_steps filed action)
  have same : (forwarder.begun action).outbox = forwarder.outbox := by
    obtain ⟨_, _, _, _, _, _, begins, kept⟩ := forwarder.begun_eq action
    rw [begins]
    exact kept keeps
  have sends : forwarder.sends action =
      (forwarder.act action).outbox.sent.drop forwarder.outbox.sent.length := by
    cases action with
    | collect face wanted => exact absurd rfl (keeps face wanted)
    | _ => rfl
  rw [same] at gained
  rw [sends, gained, List.drop_left]

/-- What waits on a face stays there, unless it is collected from that face. -/
theorem queue_act (filed : forwarder.pit.Filed) (other : ∀ wanted, action ≠ .collect face wanted) :
    (forwarder.act action).outbox.queue face =
      forwarder.outbox.queue face ++ ((forwarder.sends action).filter (·.1 == face)).map (·.2) := by
  by_cases collects : ∃ source wanted, action = .collect source wanted
  · obtain ⟨source, wanted, rfl⟩ := collects
    have apart : source ≠ face := fun same => other wanted (by rw [same])
    show (Outbox.queue ⟨_⟩ face) = forwarder.outbox.queue face ++ []
    rw [List.append_nil, Outbox.queue, Outbox.queue, List.filter_filter]
    refine congrArg (List.map _) (List.filter_congr fun entry _ => ?_)
    by_cases here : entry.1 = face
    · simp [here, Ne.symm apart]
    · simp [here]
  · have keeps : ∀ source wanted, action ≠ .collect source wanted :=
      fun source wanted same => collects ⟨source, wanted, same⟩
    rw [Outbox.queue, sent_act filed keeps, List.filter_append, List.map_append]
    rfl

theorem queue_run (sound : forwarder.Sound) {actions : List Action}
    (other : ∀ wanted, Action.collect face wanted ∉ actions) :
    (forwarder.run actions).outbox.queue face =
      forwarder.outbox.queue face ++ puts face forwarder actions := by
  induction actions generalizing forwarder with
  | nil => exact (List.append_nil _).symm
  | cons action rest ih =>
    have later := ih (sound.act action) fun wanted member => other wanted (List.mem_cons_of_mem _ member)
    have first := @queue_act forwarder action face sound.matched.filed
      fun wanted same => other wanted (by rw [same]; exact List.mem_cons_self)
    rw [puts, ← List.append_assoc, ← first]
    exact later

theorem puts_of_silent {actions : List Action} (silent : ∀ action ∈ actions, ¬ HandsOut action) :
    puts face forwarder actions = [] := by
  induction actions generalizing forwarder with
  | nil => rfl
  | cons action rest ih =>
    rw [puts, sends_eq_nil (silent action List.mem_cons_self)]
    exact ih fun action later => silent action (List.mem_cons_of_mem _ later)

end Forwarder

namespace Simulation

variable {simulation : Simulation} {place : Nat} {move : Move} {linkEnd : LinkEnd}
  {node : Nat} {face : FaceId}

/-- The packet that a call hands to a forwarder on a face. -/
def arrivalOn? (face : FaceId) : Action → Option Packet
  | .receiveInterest source interest => if source = face then some (.interest interest) else none
  | .receiveData source data => if source = face then some (.data data) else none
  | _ => none

/-- The packets that a move hands to a face of the node at a place. -/
def putsOn (simulation : Simulation) (place : Nat) (face : FaceId) (move : Move) : List Packet :=
  (simulation.nodes[place]?.map fun node =>
    node.forwarder.puts face (simulation.calls place move)).getD []

/-- The packets that are queued on a face while moves are made, each with the time. -/
def queued (place : Nat) (face : FaceId) : Simulation → List Move → List (Instant × Packet)
  | _, [] => []
  | simulation, move :: rest =>
    (simulation.putsOn place face move).map ((simulation.perform move).now, ·) ++
      queued place face (simulation.perform move) rest

/-- The packets that a forwarder is handed on a face while moves are made, each with
the time. -/
def handed (place : Nat) (face : FaceId) : Simulation → List Move → List (Instant × Packet)
  | _, [] => []
  | simulation, move :: rest =>
    ((simulation.calls place move).filterMap (arrivalOn? face)).map
        ((simulation.perform move).now, ·) ++
      handed place face (simulation.perform move) rest

/-- The packet that an event brings to a face. -/
def bound? (node : Nat) (face : FaceId) : Event → Option Packet
  | .tick _ => none
  | .delivery other source packet => if other = node ∧ source = face then some packet else none

theorem bound?_eq_some {event : Event} {packet : Packet} :
    bound? node face event = some packet ↔ event = .delivery node face packet := by
  cases event with
  | tick asker => simp [bound?]
  | delivery other source sent =>
    rw [bound?]
    split
    · rename_i same
      obtain ⟨rfl, rfl⟩ := same
      simp
    · rename_i apart
      simp only [reduceCtorEq, Event.delivery.injEq, false_iff]
      rintro ⟨rfl, rfl, _⟩
      exact apart ⟨rfl, rfl⟩

/-- The packets that are on their way to a face, in the order in which they arrive. -/
structure InFlight (timers : Timers Event) (node : Nat) (face : FaceId)
    (flying : List (TimerId × Packet)) : Prop where
  ordered : flying.Pairwise fun a b => TimerId.order a.1 b.1 = .lt
  exact : ∀ {timer : TimerId} {packet : Packet}, (timer, packet) ∈ flying ↔
    timers.running[timer]? = some (.delivery node face packet)

variable {timers : Timers Event} {flying : List (TimerId × Packet)}

theorem InFlight.numbered (inFlight : InFlight timers node face flying) (numbered : timers.Numbered)
    {flight : TimerId × Packet} (member : flight ∈ flying) : flight.1.number ≤ timers.issued :=
  numbered _ _ (inFlight.exact.mp member)

/-- Something else is set. -/
theorem InFlight.schedule_other (inFlight : InFlight timers node face flying)
    (numbered : timers.Numbered) (delay : Duration) {event : Event}
    (other : bound? node face event = none) :
    InFlight (timers.schedule delay event).2 node face flying := by
  refine ⟨inFlight.ordered, fun {timer packet} => ?_⟩
  unfold Timers.schedule
  rw [inFlight.exact, Timers.runs_scheduleAt numbered]
  refine (or_iff_right fun ⟨_, same⟩ => ?_).symm
  rw [bound?_eq_some.mpr same] at other
  cases other

/-- A packet that sets out last arrives last, when none is under way for longer. -/
theorem InFlight.schedule (inFlight : InFlight timers node face flying)
    (numbered : timers.Numbered) (delay : Duration)
    (late : ∀ flight ∈ flying, flight.1.deadline ≤ timers.now + delay) (packet : Packet) :
    InFlight (timers.schedule delay (.delivery node face packet)).2 node face
      (flying ++ [((timers.schedule delay (.delivery node face packet)).1, packet)]) := by
  obtain ⟨new, isNew⟩ : ∃ new, new = (timers.schedule delay (.delivery node face packet)).1 :=
    ⟨_, rfl⟩
  have due : new.deadline = timers.now + delay := by
    rw [isNew]
    exact Timers.deadline_schedule delay _
  have number : new.number = timers.issued + 1 := by rw [isNew]; rfl
  rw [← isNew]
  refine ⟨List.pairwise_append.mpr ⟨inFlight.ordered, List.pairwise_singleton _ _, ?_⟩,
    fun {timer other} => ?_⟩
  · intro flight member last isLast
    rw [List.mem_singleton.mp isLast]
    have lower : flight.1.deadline.nanos ≤ new.deadline.nanos := by
      rw [due]
      exact late flight member
    have older := inFlight.numbered numbered member
    show (compare flight.1.deadline.nanos new.deadline.nanos).then
      (compare flight.1.number new.number) = .lt
    rcases Nat.lt_or_eq_of_le lower with less | same
    · rw [Nat.compare_eq_lt.mpr less]
      rfl
    · rw [Nat.compare_eq_eq.mpr same]
      exact Nat.compare_eq_lt.mpr (by omega)
  · have handle : (timers.scheduleAt (timers.now + delay) (Event.delivery node face packet)).1 = new :=
      isNew.symm
    unfold Timers.schedule
    rw [Timers.runs_scheduleAt numbered, handle, List.mem_append, inFlight.exact, List.mem_singleton,
      or_comm]
    simp [eq_comm]

/-- Of what is set at one time, with one delay for this face, the packets fly on in
the order in which they were sent. -/
theorem InFlight.scheduleAll (inFlight : InFlight timers node face flying)
    (numbered : timers.Numbered) {delay : Duration}
    (late : ∀ flight ∈ flying, flight.1.deadline ≤ timers.now + delay)
    {events : List (Duration × Event)}
    (delays : ∀ event ∈ events, bound? node face event.2 ≠ none → event.1 = delay) :
    ∃ more, InFlight (timers.scheduleAll events) node face (flying ++ more) ∧
      more.map (fun flight => (flight.1.deadline, flight.2)) =
        (events.filterMap fun event => bound? node face event.2).map (timers.now + delay, ·) := by
  induction events generalizing timers flying with
  | nil => exact ⟨[], by rw [List.append_nil]; exact inFlight, rfl⟩
  | cons first rest ih =>
    have delays' : ∀ event ∈ rest, bound? node face event.2 ≠ none → event.1 = delay :=
      fun event member => delays event (List.mem_cons_of_mem _ member)
    have numbered' : (timers.schedule first.1 first.2).2.Numbered := numbered.scheduleAt _ _
    cases goes : bound? node face first.2 with
    | none =>
      obtain ⟨more, inFlight', arrive⟩ :=
        ih (inFlight.schedule_other numbered first.1 goes) numbered' late delays'
      exact ⟨more, inFlight', by rw [List.filterMap_cons, goes]; exact arrive⟩
    | some packet =>
      have own : first.1 = delay := delays first List.mem_cons_self (by rw [goes]; nofun)
      obtain ⟨firstDelay, event⟩ := first
      cases own
      cases bound?_eq_some.mp goes
      have flies := inFlight.schedule numbered firstDelay late packet
      have due := @Timers.deadline_schedule _ timers firstDelay (Event.delivery node face packet)
      obtain ⟨handle, isHandle⟩ : ∃ handle, handle =
        (timers.schedule firstDelay (Event.delivery node face packet)).1 := ⟨_, rfl⟩
      rw [← isHandle] at flies due
      obtain ⟨more, inFlight', arrive⟩ := ih flies numbered' (fun flight member => by
        rcases List.mem_append.mp member with old | new
        · exact late flight old
        · rw [List.mem_singleton.mp new, due]
          exact Nat.le_refl _) delays'
      refine ⟨(handle, packet) :: more, ?_, ?_⟩
      · rw [List.append_cons]
        exact inFlight'
      · rw [List.map_cons, arrive, due, List.filterMap_cons, goes]
        rfl

/-- Of the packets on their way to a face the first one arrives first. -/
theorem InFlight.popped (inFlight : InFlight timers node face flying) {limit : Instant}
    {timer : Timer Event} {rest : Timers Event}
    (popped : timers.popDue? limit = some (timer, rest)) :
    ∃ landed left, flying = landed ++ left ∧
      landed = ((bound? node face timer.payload).map (timer.id, ·)).toList ∧
      InFlight rest node face left := by
  obtain ⟨running, _, _⟩ := Timers.popDue?_eq_some popped
  cases goes : bound? node face timer.payload with
  | none =>
    refine ⟨[], flying, rfl, rfl, inFlight.ordered, fun {other packet} => ?_⟩
    rw [inFlight.exact, Timers.runs_popped popped]
    refine (and_iff_right_of_imp fun mine same => ?_).symm
    rw [same, running] at mine
    rw [bound?_eq_some.mpr (Option.some.inj mine)] at goes
    cases goes
  | some packet =>
    have mine : (timer.id, packet) ∈ flying := by
      rw [inFlight.exact, running, bound?_eq_some.mp goes]
    -- It is under way and comes before all others, so it is the first of the list.
    cases flying with
    | nil => cases mine
    | cons first others =>
      have isFirst : first = (timer.id, packet) := by
        rcases List.mem_cons.mp mine with same | later
        · exact same.symm
        · have before := List.rel_of_pairwise_cons inFlight.ordered later
          have after := Timers.least_of_popDue? popped (inFlight.exact.mp List.mem_cons_self)
          rw [Std.OrientedCmp.gt_of_lt before] at after
          cases after
      subst isFirst
      refine ⟨[(timer.id, packet)], others, rfl, rfl, inFlight.ordered.of_cons, ?_⟩
      intro other sent
      have apart : (other, sent) ∈ others → other ≠ timer.id := by
        rintro later rfl
        have before := List.rel_of_pairwise_cons inFlight.ordered later
        have same : TimerId.order timer.id timer.id = .eq := Std.ReflCmp.compare_self
        cases same.symm.trans before
      rw [Timers.runs_popped popped, ← inFlight.exact, List.mem_cons]
      refine ⟨fun later => ⟨apart later, Or.inr later⟩, fun ⟨different, listed⟩ => ?_⟩
      refine listed.resolve_left fun same => ?_
      cases same
      exact different rfl

theorem arrivalOn?_of_on {source : FaceId} {action : Action} (on : On source action)
    (other : source ≠ face) : arrivalOn? face action = none := by
  cases on with
  | collect => rfl
  | interest => exact if_neg other
  | data => exact if_neg other

theorem arrivals_eq_nil (still : ∀ time, move ≠ .advance time)
    (elsewhere : simulation.port? move ≠ some (node, face)) :
    (simulation.calls node move).filterMap (arrivalOn? face) = [] := by
  refine List.filterMap_eq_nil_iff.mpr fun action called => ?_
  obtain ⟨source, causes⟩ := causes_of_calls still called
  refine arrivalOn?_of_on causes.on fun same => elsewhere ?_
  rw [← same]
  exact causes.port

/-- No application is behind the end of a link. -/
theorem Orderly.apart_asker (orderly : simulation.Orderly)
    (member : linkEnd ∈ simulation.layout.endsAt place) {asker : Nat} {consumer : Consumer}
    (found : simulation.consumers[asker]? = some consumer) :
    (consumer.node, consumer.face) ≠ (place, linkEnd.face) := by
  intro same
  refine orderly.proper.apart member (List.mem_append_left _ ?_)
  rw [← same]
  exact List.mem_map_of_mem (List.mem_of_getElem? found)

theorem Orderly.apart_answerer (orderly : simulation.Orderly)
    (member : linkEnd ∈ simulation.layout.endsAt place) {answerer : Nat} {producer : Producer}
    (found : simulation.producers[answerer]? = some producer) :
    (producer.node, producer.face) ≠ (place, linkEnd.face) := by
  intro same
  refine orderly.proper.apart member (List.mem_append_right _ ?_)
  rw [← same]
  exact List.mem_map_of_mem (List.mem_of_getElem? found)

/-- What arrives at the end of a link is what an event brings. -/
theorem Orderly.arrivals (orderly : simulation.Orderly)
    (member : linkEnd ∈ simulation.layout.endsAt node) (move : Move) :
    (simulation.calls node move).filterMap (arrivalOn? linkEnd.face) =
      match move with
      | .happen => ((simulation.timers.popDue? simulation.now).bind fun due =>
          bound? node linkEnd.face due.1.payload).toList
      | _ => [] := by
  cases move with
  | sendOff other off =>
    simp only [calls]
    split <;> rfl
  | feed asker =>
    simp only [calls]
    split
    · rfl
    · split <;> rfl
  | serve answerer =>
    cases found : simulation.producers[answerer]? with
    | none =>
      simp only [calls, found]
      rfl
    | some producer =>
      refine arrivals_eq_nil (fun _ same => by cases same) fun same => ?_
      simp only [port?, found, Option.map_some, Option.some.injEq] at same
      exact orderly.apart_answerer member found same
  | happen =>
    cases popped : simulation.timers.popDue? simulation.now with
    | none =>
      simp only [calls, popped]
      rfl
    | some due =>
      obtain ⟨⟨timer, event⟩, rest⟩ := due
      cases event with
      | tick asker =>
        cases found : simulation.consumers[asker]? with
        | none =>
          simp only [calls, popped, eventCalls, found]
          rfl
        | some consumer =>
          refine arrivals_eq_nil (fun _ same => by cases same) fun same => ?_
          simp only [port?, popped, Option.bind_some, found, Option.map_some,
            Option.some.injEq] at same
          exact orderly.apart_asker member found same
      | delivery other source packet =>
        simp only [calls, popped, eventCalls, Option.bind_some, bound?]
        by_cases here : other = node
        · rw [if_pos here]
          by_cases mine : source = linkEnd.face
          · rw [if_pos ⟨here, mine⟩, mine]
            cases packet <;> simp [arrival, arrivalOn?]
          · rw [if_neg fun both => mine both.2]
            exact List.filterMap_eq_nil_iff.mpr fun action called => by
              rw [List.mem_singleton.mp called]
              exact arrivalOn?_of_on (on_arrival source packet) mine
        · rw [if_neg here, if_neg fun both => here both.1]
          rfl
  | advance time =>
    refine List.filterMap_eq_nil_iff.mpr fun action called => ?_
    rcases mem_calls_advance called with fires | passes
    · rw [fires]
      rfl
    · rw [passes]
      rfl
  | giveUp time => rfl

/-- The first packet on its way arrives at the time it should. -/
theorem Orderly.lands (orderly : simulation.Orderly)
    (member : linkEnd ∈ simulation.layout.endsAt node)
    (inFlight : InFlight simulation.timers node linkEnd.face flying) (move : Move) :
    ∃ landed left, flying = landed ++ left ∧
      InFlight (simulation.leftBy move) node linkEnd.face left ∧
      landed.map (fun flight => (flight.1.deadline, flight.2)) =
        ((simulation.calls node move).filterMap (arrivalOn? linkEnd.face)).map
          ((simulation.perform move).now, ·) := by
  rw [orderly.arrivals member]
  have none : InFlight (simulation.leftBy move) node linkEnd.face flying →
      ∃ landed left, flying = landed ++ left ∧
        InFlight (simulation.leftBy move) node linkEnd.face left ∧
        landed.map (fun flight => (flight.1.deadline, flight.2)) =
          List.map ((simulation.perform move).now, ·) [] :=
    fun same => ⟨[], flying, rfl, same, rfl⟩
  cases move with
  | happen =>
    cases popped : simulation.timers.popDue? simulation.now with
    | none =>
      refine none ?_
      simp only [leftBy, popped]
      exact inFlight
    | some due =>
      obtain ⟨timer, rest⟩ := due
      obtain ⟨landed, left, split, isLanded, inFlight'⟩ := inFlight.popped popped
      refine ⟨landed, left, split, by simp only [leftBy, popped]; exact inFlight', ?_⟩
      obtain ⟨running, due, _⟩ := Timers.popDue?_eq_some popped
      have onTime : timer.id.deadline = simulation.now :=
        Duration.ext (Nat.le_antisymm due (orderly.ahead running))
      have still : ∀ time, Move.happen ≠ .advance time := fun _ same => by cases same
      rw [isLanded, now_perform still, Option.bind_some]
      cases bound? node linkEnd.face timer.payload with
      | none => rfl
      | some packet =>
        rw [← onTime]
        rfl
  | sendOff => exact none inFlight
  | feed => exact none inFlight
  | serve => exact none inFlight
  | advance => exact none ⟨inFlight.ordered, inFlight.exact⟩
  | giveUp => exact none inFlight

/-- Nothing but sending off what waits on the end of a link takes it away. -/
theorem Orderly.not_collected (orderly : simulation.Orderly)
    (member : linkEnd ∈ simulation.layout.endsAt place) (allowed : simulation.Allowed move)
    (other : move ≠ .sendOff place linkEnd) (wanted : Packet → Bool) :
    Action.collect linkEnd.face wanted ∉ simulation.calls place move := by
  intro called
  rcases move.still_or_advances with still | ⟨time, rfl⟩
  · obtain ⟨face, causes⟩ := causes_of_calls still called
    cases causes with
    | sendOff _ own => exact other (by rw [orderly.proper.eq_of_face allowed member own])
    | feed _ found own => exact orderly.apart_asker member found own
    | take _ found own => exact orderly.apart_answerer member found own
  · rcases mem_calls_advance called with fires | passes
    · cases fires
    · cases passes

/-- Only the end of a link sends packets to its peer, each after the delay of the link. -/
theorem Orderly.sends (orderly : simulation.Orderly)
    (member : linkEnd ∈ simulation.layout.endsAt place) (allowed : simulation.Allowed move)
    {event : Duration × Event} (set : event ∈ simulation.scheduled move) {packet : Packet}
    (goes : bound? linkEnd.peerNode linkEnd.peerFace event.2 = some packet) :
    move = .sendOff place linkEnd ∧ event.1 = linkEnd.delay := by
  obtain ⟨delay, event⟩ := event
  cases bound?_eq_some.mp goes
  obtain ⟨_, _, rfl, rfl, node, face, _⟩ := scheduled_delivery set
  obtain ⟨rfl, rfl⟩ := orderly.proper.eq_of_peer allowed member node.symm face.symm
  exact ⟨rfl, rfl⟩

/-- What waits on the end of a link sets out as a whole, or waits on with what is
handed to the face now. -/
theorem Orderly.departs (orderly : simulation.Orderly)
    (member : linkEnd ∈ simulation.layout.endsAt place) (allowed : simulation.Allowed move) :
    ∃ stays, simulation.queueAt place linkEnd.face = (simulation.scheduled move).filterMap
          (fun event => bound? linkEnd.peerNode linkEnd.peerFace event.2) ++ stays ∧
      (simulation.perform move).queueAt place linkEnd.face =
        stays ++ simulation.putsOn place linkEnd.face move := by
  obtain ⟨node, found, _⟩ := mem_endsAt.mp member
  have found' : (simulation.perform move).nodes[place]? =
      some { node with forwarder := node.forwarder.run (simulation.calls place move) } := by
    rw [nodes_perform, found]
    rfl
  by_cases mine : move = .sendOff place linkEnd
  · subst mine
    refine ⟨[], ?_, ?_⟩
    · rw [List.append_nil, scheduled, List.filterMap_map]
      have all : ((fun event : Duration × Event =>
          bound? linkEnd.peerNode linkEnd.peerFace event.2) ∘ fun packet =>
            (linkEnd.delay, Event.delivery linkEnd.peerNode linkEnd.peerFace packet)) = some :=
        funext fun packet => if_pos ⟨rfl, rfl⟩
      rw [all, List.filterMap_some]
    · have called : simulation.calls place (.sendOff place linkEnd) =
          [.collect linkEnd.face fun _ => true] := if_pos rfl
      rw [queueAt, found', putsOn, found, called]
      simp only [Option.map_some, Option.getD_some]
      rw [Forwarder.puts_of_silent fun action collects hands => by
        rw [List.mem_singleton.mp collects] at hands
        cases hands]
      show (Outbox.queue ⟨_⟩ linkEnd.face) = _
      rw [Outbox.queue, List.filter_filter, List.filter_eq_nil_iff.mpr]
      · rfl
      · intro entry _ both
        simp only [Bool.and_true, Bool.not_eq_true', Bool.and_eq_true, beq_iff_eq,
          beq_eq_false_iff_ne, ne_eq] at both
        exact both.2 both.1
  · refine ⟨simulation.queueAt place linkEnd.face, ?_, ?_⟩
    · rw [List.filterMap_eq_nil_iff.mpr, List.nil_append]
      intro event set
      exact Option.eq_none_iff_forall_ne_some.mpr fun packet goes =>
        mine (orderly.sends member allowed set goes).1
    · rw [queueAt, queueAt, found', putsOn, found]
      exact Forwarder.queue_run (orderly.sound found) (orderly.not_collected member allowed mine)

/-- The same packet when it has come to the other end of a link. -/
def delayed (delay : Duration) (sent : Instant × Packet) : Instant × Packet :=
  (sent.1 + delay, sent.2)

/-- What has become of the packets that were queued on the end of a link: those that
have left arrived in order, one delay later, or are under way, and the others wait
since now. -/
structure Transit (simulation : Simulation) (place : Nat) (linkEnd : LinkEnd)
    (put taken : List (Instant × Packet)) (flying : List (TimerId × Packet)) : Prop where
  gone : ∃ gone, put = gone ++ (simulation.queueAt place linkEnd.face).map (simulation.now, ·) ∧
    gone.map (delayed linkEnd.delay) =
      taken ++ flying.map fun flight => (flight.1.deadline, flight.2)
  inFlight : InFlight simulation.timers linkEnd.peerNode linkEnd.peerFace flying
  late : ∀ flight ∈ flying, flight.1.deadline ≤ simulation.now + linkEnd.delay

variable {put taken : List (Instant × Packet)}

theorem now_le_perform (move : Move) : simulation.now ≤ (simulation.perform move).now := by
  rcases move.still_or_advances with still | ⟨time, rfl⟩
  · rw [now_perform still]
    exact Nat.le_refl _
  · exact Std.left_le_max

/-- The clock moves on only when nothing waits. -/
theorem stamps_perform (allowed : simulation.Allowed move)
    (member : linkEnd ∈ simulation.layout.endsAt place) :
    (simulation.queueAt place linkEnd.face).map (simulation.now, ·) =
      (simulation.queueAt place linkEnd.face).map ((simulation.perform move).now, ·) := by
  rcases move.still_or_advances with still | ⟨time, rfl⟩
  · rw [now_perform still]
  · rw [allowed.1.queueAt_eq_nil member]
    rfl

theorem Transit.perform (transit : Transit simulation place linkEnd put taken flying)
    (orderly : simulation.Orderly) (allowed : simulation.Allowed move)
    (member : linkEnd ∈ simulation.layout.endsAt place) :
    ∃ flying', Transit (simulation.perform move) place linkEnd
      (put ++ (simulation.putsOn place linkEnd.face move).map ((simulation.perform move).now, ·))
      (taken ++ ((simulation.calls linkEnd.peerNode move).filterMap
        (arrivalOn? linkEnd.peerFace)).map ((simulation.perform move).now, ·)) flying' := by
  obtain ⟨gone, isPut, arrived⟩ := transit.gone
  have landing := orderly.lands (orderly.proper.mated member) transit.inFlight move
  rw [show (linkEnd.back place).face = linkEnd.peerFace from rfl] at landing
  obtain ⟨landed, left, isFlying, inFlight, lands⟩ := landing
  obtain ⟨stays, split, waits⟩ := orderly.departs member allowed
  obtain ⟨departed, isDeparted⟩ : ∃ departed, departed = (simulation.scheduled move).filterMap
    fun event => bound? linkEnd.peerNode linkEnd.peerFace event.2 := ⟨_, rfl⟩
  have clock : (simulation.leftBy move).now = (simulation.perform move).now := by
    rw [now, timers_perform, Timers.now_scheduleAll]
  have late : ∀ flight ∈ left,
      flight.1.deadline ≤ (simulation.perform move).now + linkEnd.delay := fun flight listed =>
    Nat.le_trans (transit.late flight (by rw [isFlying]; exact List.mem_append_right _ listed))
      (Duration.add_le_add_right (now_le_perform move) _)
  have delays : ∀ event ∈ simulation.scheduled move,
      bound? linkEnd.peerNode linkEnd.peerFace event.2 ≠ none → event.1 = linkEnd.delay := by
    intro event set goes
    obtain ⟨packet, goes⟩ := Option.ne_none_iff_exists'.mp goes
    exact (orderly.sends member allowed set goes).2
  rw [← clock] at late
  obtain ⟨more, inFlight', arrive⟩ :=
    inFlight.scheduleAll (numbered_leftBy orderly.numbered move) late delays
  rw [clock, ← isDeparted] at arrive
  rw [← isDeparted] at split
  rw [clock] at late
  refine ⟨left ++ more, ⟨gone ++ departed.map ((simulation.perform move).now, ·), ?_, ?_⟩, ?_, ?_⟩
  · rw [isPut, stamps_perform allowed member, split, waits]
    simp only [List.map_append, List.append_assoc]
  · have passed : (departed.map ((simulation.perform move).now, ·)).map (delayed linkEnd.delay) =
        departed.map ((simulation.perform move).now + linkEnd.delay, ·) := List.map_map
    rw [List.map_append, arrived, passed, isFlying, ← lands, ← arrive]
    simp only [List.map_append, List.append_assoc]
  · rw [timers_perform]
    exact inFlight'
  · intro flight listed
    rcases List.mem_append.mp listed with old | new
    · exact late flight old
    · have due : (flight.1.deadline, flight.2) ∈
          departed.map ((simulation.perform move).now + linkEnd.delay, ·) := by
        rw [← arrive]
        exact List.mem_map_of_mem new
      obtain ⟨_, _, same⟩ := List.mem_map.mp due
      rw [← (Prod.mk.inj same).1]
      exact Nat.le_refl _

theorem Transit.follow (transit : Transit simulation place linkEnd put taken flying)
    (orderly : simulation.Orderly) {moves : List Move} (allowed : Along Allowed simulation moves)
    (member : linkEnd ∈ simulation.layout.endsAt place) :
    ∃ flying', Transit (simulation.follow moves) place linkEnd
      (put ++ queued place linkEnd.face simulation moves)
      (taken ++ handed linkEnd.peerNode linkEnd.peerFace simulation moves) flying' := by
  induction moves generalizing simulation put taken flying with
  | nil =>
    refine ⟨flying, ?_⟩
    rw [queued, handed, List.append_nil, List.append_nil]
    exact transit
  | cons move rest ih =>
    obtain ⟨_, transit'⟩ := transit.perform orderly allowed.1 member
    obtain ⟨flying', last⟩ := ih transit' (orderly.perform allowed.1) allowed.2
      (by rw [layout_perform]; exact member)
    refine ⟨flying', ?_⟩
    rw [queued, handed, ← List.append_assoc, ← List.append_assoc]
    exact last

/-- Up to a time before all that is still to happen, exactly the packets that were
queued early enough have arrived. -/
theorem Transit.exact (transit : Transit simulation place linkEnd put taken flying)
    (settled : simulation.Settled) (member : linkEnd ∈ simulation.layout.endsAt place)
    {time : Instant} (later : ∀ (timer : TimerId) (event : Event),
      simulation.timers.running[timer]? = some event → time < timer.deadline) :
    taken.filter (·.1 ≤ time) = (put.map (delayed linkEnd.delay)).filter (·.1 ≤ time) := by
  obtain ⟨gone, isPut, arrived⟩ := transit.gone
  rw [settled.queueAt_eq_nil member, List.map_nil, List.append_nil] at isPut
  have none : (flying.map fun flight => (flight.1.deadline, flight.2)).filter (·.1 ≤ time) = [] := by
    refine List.filter_eq_nil_iff.mpr fun _ listed passed => ?_
    obtain ⟨flight, flies, rfl⟩ := List.mem_map.mp listed
    have due := later _ _ (transit.inFlight.exact.mp flies)
    exact Nat.not_le_of_lt due (of_decide_eq_true passed)
  rw [isPut, arrived, List.filter_append, none, List.append_nil]

variable {scenario : Scenario} {links : List LinkSetting} {asking : List ConsumerSetting}

theorem SetUp.transit (setUp : SetUp scenario links asking simulation)
    (member : linkEnd ∈ simulation.layout.endsAt place) :
    Transit simulation place linkEnd [] [] [] where
  gone := ⟨[], by rw [setUp.settled.queueAt_eq_nil member]; rfl, rfl⟩
  inFlight := ⟨.nil, fun {timer packet} => ⟨nofun, fun running => by
    obtain ⟨_, same⟩ := setUp.ticks running
    cases same⟩⟩
  late := nofun

/-- Links lose nothing and keep the order. However far a run has come, what a node was
handed on the end of a link up to a time is what was queued on the other end up to one
delay earlier, each packet with the time at which it was queued moved on by the delay. -/
theorem links_are_exact (passed : scenario.check = .ok ())
    (spans : ∀ setting ∈ scenario.consumers, setting.interval?.isSome = true)
    (nonces : NonceSource) :
    ∃ start, ofScenario scenario nonces = .ok start ∧
      (∀ link ∈ scenario.links, scenario.Joins start.layout link) ∧
      ∀ budget, (∀ final, start.run? budget = some final → final = start.follow (start.moves budget)) ∧
        ∀ time, (time < (start.follow (start.moves budget)).now ∨
            (start.run? budget).isSome = true ∧ time ≤ Duration.ofMillis scenario.duration) →
          ∀ place, ∀ linkEnd ∈ start.layout.endsAt place,
            (handed linkEnd.peerNode linkEnd.peerFace start (start.moves budget)).filter
                (·.1 ≤ time) =
              ((queued place linkEnd.face start (start.moves budget)).filter
                (·.1 + linkEnd.delay ≤ time)).map (delayed linkEnd.delay) := by
  obtain ⟨start, made, setUp⟩ := exists_ofScenario passed spans nonces
  refine ⟨start, made, setUp.joined, fun budget =>
    ⟨fun final ended => run?_eq_follow ended, fun time reached place linkEnd member => ?_⟩⟩
  have allowed := allowed_moves setUp.settled budget
  have orderly := orderly_follow setUp.orderly allowed
  obtain ⟨flying, transit⟩ := (setUp.transit member).follow setUp.orderly allowed member
  have later (timer : TimerId) (event : Event)
      (running : (start.follow (start.moves budget)).timers.running[timer]? = some event) :
      time < timer.deadline := by
    rcases reached with passes | ⟨ended, bound⟩
    · exact Nat.lt_of_lt_of_le passes (orderly.ahead running)
    · refine Nat.lt_of_le_of_lt bound ?_
      rw [← setUp.stop]
      exact later_of_run? setUp.settled ended running
  have exact := transit.exact (settled_moves setUp.settled budget)
    (by rw [layout_follow]; exact member) later
  rw [List.nil_append, List.nil_append, List.filter_map] at exact
  exact exact

/-- Two neighbours, one of which asks for what the other has. -/
def neighbours : Scenario where
  nodes := [{ name := "a" }, { name := "b" }]
  links := [{ a := "a", b := "b", delay := 5 }]
  routes := [{ node := "a", under := "/news", nextHop := "b" }]
  consumers := [{ node := "a", under := "/news" }]
  producers := [{ node := "b", under := "/news" }]

/-- In a quarter of a second one neighbour sends the other three Interests, and the
link hands on each of them 5 ms later. -/
theorem links_are_exact_between_neighbours : neighbours.check = .ok () ∧
    (∀ setting ∈ neighbours.consumers, setting.interval?.isSome = true) ∧
    ∃ start final linkEnd, ofScenario { neighbours with duration := 250 } (.scrambled 1) = .ok start ∧
      start.run? 50 = some final ∧
      final.nodes.map (fun node =>
        (node.forwarder.counters.inInterests, node.forwarder.counters.outInterests)) =
          [(3, 3), (3, 3)] ∧
      linkEnd ∈ start.layout.endsAt 0 ∧ linkEnd.peerNode = 1 ∧ linkEnd.delay = Duration.ofMillis 5 ∧
      (handed 1 linkEnd.peerFace start (start.moves 50)).filter (·.1 ≤ Duration.ofMillis 250) =
        ((queued 0 linkEnd.face start (start.moves 50)).filter
          (·.1 + linkEnd.delay ≤ Duration.ofMillis 250)).map (delayed linkEnd.delay) := by
  have passed : neighbours.check = .ok () := by decide +kernel
  have spans : ∀ setting ∈ neighbours.consumers, setting.interval?.isSome = true := by
    decide +kernel
  obtain ⟨start, made, joins, exact⟩ := @links_are_exact
    { neighbours with duration := 250 } passed spans (.scrambled 1)
  have busy : ((ofScenario { neighbours with duration := 250 } (.scrambled 1)).toOption.bind
      (runWithin? 5 50)).map (·.nodes.map fun node =>
        (node.forwarder.counters.inInterests, node.forwarder.counters.outInterests)) =
          some [(3, 3), (3, 3)] := by
    decide +kernel
  rw [made] at busy
  obtain ⟨final, returns, counts⟩ := Option.map_eq_some_iff.mp busy
  have ended : start.run? 50 = some final := run?_of_within returns
  obtain ⟨a, b, linkEnd, foundA, foundB, atA, peer, _, delay⟩ := joins _ List.mem_cons_self
  have isA : neighbours.place? "a" = some 0 := by decide +kernel
  have isB : neighbours.place? "b" = some 1 := by decide +kernel
  cases isA.symm.trans foundA
  cases isB.symm.trans foundB
  have last := (exact 50).2 (Duration.ofMillis 250)
    (Or.inr ⟨by rw [ended]; rfl, Nat.le_refl _⟩) 0 linkEnd atA
  rw [peer] at last
  exact ⟨passed, spans, start, final, linkEnd, made, ended, counts, atA, peer, delay, last⟩

end Simulation

end NamedData
