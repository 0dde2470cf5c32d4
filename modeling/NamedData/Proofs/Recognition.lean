import Mathlib.Data.List.Infix
import NamedData.Proofs.AskedNames

namespace NamedData

/-- A name that is a prefix of a request is one itself, or a prefix of what the request is under. -/
theorem Name.eq_or_prefix_of_appendSequence {name under : Name} {number : Nat}
    (extends' : name.isPrefixOf (under.appendSequence number) = true) :
    name = under.appendSequence number ∨ name.isPrefixOf under = true := by
  have components := List.isPrefixOf_iff_prefix.mp extends'
  rcases List.prefix_concat_iff.mp components with same | shorter
  · exact Or.inl (Name.ext same)
  · exact Or.inr (List.isPrefixOf_iff_prefix.mpr shorter)

namespace Consumer

variable {first : Consumer} {earlier later : List Turn} {data : Data} {now : Instant}

/-- A consumer takes Data in, between some turns and others, as the answer to a request. The
request does not wait any longer, and no other stops waiting. It is counted as satisfied then,
at no other time, and never as timed out. -/
structure Recognises (first : Consumer) (earlier : List Turn) (data : Data) (now : Instant)
    (later : List Turn) (request : Name) : Prop where
  leaves : ((first.follow earlier).receive data now).pending[request]? = none
  others : ∀ other, other ≠ request →
    ((first.follow earlier).receive data now).pending[other]? = (first.follow earlier).pending[other]?
  counted : ((first.follow earlier).receive data now).satisfied =
    (first.follow earlier).satisfied + 1
  once : ((throughout answers first (earlier ++ .receive data now :: later)).map (·.name)).count
    request = 1
  kept : request ∉ throughout losses first (earlier ++ .receive data now :: later)

/-- A consumer recognises the answer to a pending request by its name. -/
theorem Accounts.recognises (accounts : first.Accounts [] [] []) {time : Instant}
    (waits : (first.follow earlier).pending[data.name]? = some time) :
    first.Recognises earlier data now later data.name := by
  obtain ⟨turns, isTurns⟩ : ∃ turns, turns = earlier ++ .receive data now :: later := ⟨_, rfl⟩
  have once := (accounts.follow turns).once
  rw [List.nil_append, List.nil_append] at once
  obtain ⟨answeredOnce, _, apart⟩ := List.nodup_append.mp once
  have answered : data.name ∈ (throughout answers first turns).map (·.name) := by
    refine List.mem_map.mpr ⟨⟨data.name, time, now⟩, ?_, rfl⟩
    rw [isTurns, throughout_append]
    refine List.mem_append_right _ (List.mem_append_left _ ?_)
    rw [answers, waits]
    exact List.mem_cons_self
  have received : (first.follow earlier).receive data now = { first.follow earlier with
      pending := (first.follow earlier).pending.erase data.name
      satisfied := (first.follow earlier).satisfied + 1
      waited := (first.follow earlier).waited + (now - time).nanos } := by
    simp only [Consumer.receive, waits]
  rw [isTurns] at answered answeredOnce apart
  refine ⟨?_, fun other different => ?_, ?_, List.count_eq_one_of_mem answeredOnce answered,
    fun lost => apart _ answered _ lost rfl⟩ <;> rw [received]
  · exact Std.ExtTreeMap.getElem?_erase_self
  · rw [Std.ExtTreeMap.getElem?_erase, if_neg]
    exact fun same => different (Std.compare_eq_iff_eq.mp same).symm

end Consumer

namespace Simulation

open Consumer (Turn throughout asks answers losses)

variable {simulation : Simulation} {place asker budget rounds : Nat} {move : Move} {face : FaceId}
  {moves : List Move} {turns : List Turn} {last : Simulation}

section Handover

/-- The Data that a consumer takes in, with the time. -/
def receipt? : Turn → Option (Instant × Data)
  | .receive data now => some (now, data)
  | _ => none

/-- The Data among packets that have a time. -/
def dataAmong (packets : List (Instant × Packet)) : List (Instant × Data) :=
  packets.filterMap fun sent => sent.2.data?.map (sent.1, ·)

theorem dataAmong_append (earlier later : List (Instant × Packet)) :
    dataAmong (earlier ++ later) = dataAmong earlier ++ dataAmong later := List.filterMap_append

theorem dataAmong_map (now : Instant) (packets : List Packet) :
    dataAmong (packets.map (now, ·)) = (packets.filterMap (·.data?)).map (now, ·) := by
  rw [dataAmong, List.filterMap_map, List.map_filterMap]
  rfl

theorem receipts_receives (now : Instant) (replies : List Data) :
    (replies.map (Turn.receive · now)).filterMap receipt? = replies.map (now, ·) := by
  rw [List.filterMap_map, ← List.filterMap_eq_map]
  rfl

/-- The Data on a queue is what a consumer with that face takes. -/
theorem repliesTo_eq {consumer : Consumer} (own : (consumer.node, consumer.face) = (place, face)) :
    repliesTo simulation.nodes consumer = (simulation.queueAt place face).filterMap (·.data?) := by
  cases own
  have wanted (packets : List Packet) :
      (packets.filter (·.isData)).filterMap (·.data?) = packets.filterMap (·.data?) := by
    rw [List.filterMap_filter]
    refine congrArg (packets.filterMap ·) (funext fun packet => ?_)
    cases packet <;> rfl
  rw [repliesTo, queueAt]
  cases simulation.nodes[consumer.node]? with
  | none => rfl
  | some node => exact wanted _

/-- Only the consumer itself collects from its face. -/
theorem Orderly.feeds (orderly : simulation.Orderly) (allowed : simulation.Allowed move)
    (listed : simulation.layout.askers[asker]? = some (place, face)) {wanted : Packet → Bool}
    (called : .collect face wanted ∈ simulation.calls place move) : move = .feed asker := by
  rcases move.still_or_advances with still | ⟨time, rfl⟩
  · obtain ⟨source, causes⟩ := causes_of_calls still called
    cases causes with
    | sendOff _ own =>
      have app := List.mem_append_left simulation.layout.answerers (List.mem_of_getElem? listed)
      rw [← own] at app
      exact absurd app (orderly.proper.apart allowed)
    | feed _ found own => rw [orderly.eq_of_own listed found own]
    | @take answerer producer _ found own =>
      have listed' : (place, face) ∈ simulation.layout.answerers := by
        rw [← own]
        exact List.mem_map_of_mem (List.mem_of_getElem? found)
      have apart := (List.nodup_append.mp orderly.proper.apps).2.2
      exact absurd rfl (apart _ (List.mem_of_getElem? listed) _ listed')
  · rcases mem_calls_advance called with same | same <;> cases same

/-- A consumer only takes Data in when it is fed. -/
theorem receipts_of_ne (other : move ≠ .feed asker) :
    (simulation.turns asker move).filterMap receipt? = [] := by
  cases move with
  | feed place =>
    simp only [turns]
    split
    · rfl
    · rw [if_neg fun same => other (by rw [same])]
      rfl
  | happen =>
    simp only [turns]
    split
    · rfl
    · rename_i timer rest _
      cases timer.payload with
      | tick place =>
        rw [eventTurns]
        split <;> rfl
      | delivery => rfl
  | _ => rfl

/-- The Data on the face of a consumer goes to the consumer as a whole, or waits on with what
is handed to the face now. -/
theorem Orderly.handsOver (orderly : simulation.Orderly) (allowed : simulation.Allowed move)
    (listed : simulation.layout.askers[asker]? = some (place, face)) :
    ∃ stays, ((simulation.queueAt place face).filterMap (·.data?)).map (simulation.now, ·) =
        (simulation.turns asker move).filterMap receipt? ++ stays.map (simulation.now, ·) ∧
      ((simulation.perform move).queueAt place face).filterMap (·.data?) =
        stays ++ (simulation.putsOn place face move).filterMap (·.data?) := by
  by_cases mine : move = .feed asker
  · subst mine
    rw [layout, List.getElem?_map] at listed
    obtain ⟨consumer, found, own⟩ := Option.map_eq_some_iff.mp listed
    have isPlace : consumer.node = place := (Prod.mk.inj own).1
    have isFace : consumer.face = face := (Prod.mk.inj own).2
    have called : simulation.calls place (.feed asker) = [.collect face (·.isData)] := by
      simp only [calls, found, if_pos isPlace, isFace]
    have fed : simulation.turns asker (.feed asker) =
        (repliesTo simulation.nodes consumer).map (.receive · simulation.now) := by
      simp only [turns, found, if_true]
    refine ⟨[], ?_, ?_⟩
    · rw [fed, receipts_receives, repliesTo_eq own]
      exact (List.append_nil _).symm
    · rw [queueAt, nodes_perform, putsOn, called]
      cases simulation.nodes[place]? with
      | none => rfl
      | some node =>
        have silent : node.forwarder.puts face [.collect face (·.isData)] = [] :=
          Forwarder.puts_of_silent fun action member hands => by
            rw [List.mem_singleton.mp member] at hands
            cases hands
        simp only [Option.map_some, Option.getD_some, silent]
        refine List.filterMap_eq_nil_iff.mpr fun packet waits => ?_
        have kept := (List.mem_filter.mp (Outbox.mem_queue.mp waits)).2
        cases packet with
        | interest => rfl
        | data data => simp [Packet.isData, Packet.isInterest] at kept
  · refine ⟨(simulation.queueAt place face).filterMap (·.data?), ?_, ?_⟩
    · rw [receipts_of_ne mine, List.nil_append]
    · rw [← List.filterMap_append, queueAt, queueAt, nodes_perform, putsOn]
      cases found : simulation.nodes[place]? with
      | none => rfl
      | some node =>
        refine congrArg (List.filterMap _) ?_
        exact Forwarder.queue_run (orderly.sound found) fun wanted called =>
          mine (orderly.feeds allowed listed called)

theorem Settled.noData (settled : simulation.Settled)
    (listed : simulation.layout.askers[asker]? = some (place, face)) :
    (simulation.queueAt place face).filterMap (·.data?) = [] := by
  refine List.filterMap_eq_nil_iff.mpr fun packet waits => ?_
  obtain ⟨node, found, sent⟩ := mem_queueAt waits
  cases packet with
  | interest => rfl
  | data => exact absurd ⟨node, found, _, sent, rfl⟩ (settled.askers (List.mem_of_getElem? listed))

/-- Whatever Data a node hands to the face of a consumer, the consumer takes in, in the same
order and at the same time, or it still waits since now. -/
theorem Orderly.receipts (orderly : simulation.Orderly) (allowed : Along Allowed simulation moves)
    (listed : simulation.layout.askers[asker]? = some (place, face)) :
    ((simulation.queueAt place face).filterMap (·.data?)).map (simulation.now, ·) ++
        dataAmong (queued place face simulation moves) =
      (turnsOf asker simulation moves).filterMap receipt? ++
        (((simulation.follow moves).queueAt place face).filterMap (·.data?)).map
          ((simulation.follow moves).now, ·) := by
  induction moves generalizing simulation with
  | nil => exact List.append_nil _
  | cons move rest ih =>
    have later := ih (orderly.perform allowed.1) allowed.2 (by rw [layout_perform]; exact listed)
    obtain ⟨stays, goes, waits⟩ := orderly.handsOver allowed.1 listed
    -- The clock moves on only when no Data waits.
    have stamps : stays.map (simulation.now, ·) = stays.map ((simulation.perform move).now, ·) := by
      rcases move.still_or_advances with still | ⟨time, rfl⟩
      · rw [now_perform still]
      · rw [allowed.1.1.noData listed, List.map_nil] at goes
        rw [List.map_eq_nil_iff.mp (List.append_eq_nil_iff.mp goes.symm).2]
        rfl
    rw [waits, List.map_append, List.append_assoc] at later
    rw [queued, dataAmong_append, dataAmong_map, turnsOf, List.filterMap_append, goes, stamps,
      List.append_assoc, List.append_assoc, later]
    rfl

end Handover

section Evaluation

/-- What comes first in the next step. Like all that follows it evaluates inside a proof. -/
def firstMove? (simulation : Simulation) : Option Move :=
  match simulation.timers.firstDue? simulation.now with
  | some _ => some .happen
  | none =>
    match simulation.firstDeadline? with
    | none => none
    | some time => if time ≤ simulation.stop then some (.advance time) else none

theorem next?_eq_firstMove? (simulation : Simulation) :
    simulation.next? = simulation.firstMove? := by
  rewrite [next?, firstMove?, Timers.popDue?_eq_firstDue?, nextDeadline?_eq_firstDeadline?]
  rfl

/-- What a move does to a consumer, and what comes of it. -/
def evaluateMove (asker : Nat) (simulation : Simulation) : Move → List Turn × Simulation
  | .happen =>
    match simulation.timers.firstDue? simulation.now with
    | none => ([], simulation)
    | some (timer, timers) => ({ simulation with timers }.eventTurns asker timer.payload,
        { simulation with timers }.handle timer.payload)
  | .advance time => ([], simulation.evaluateAdvance time)
  | move => (simulation.turns asker move, simulation.perform move)

theorem evaluateMove_eq (asker : Nat) (simulation : Simulation) (move : Move) :
    simulation.evaluateMove asker move = (simulation.turns asker move, simulation.perform move) := by
  cases move with
  | happen =>
    simp only [evaluateMove, turns, perform, Timers.popDue?_eq_firstDue?]
    cases simulation.timers.firstDue? simulation.now <;> rfl
  | advance time =>
    simp only [evaluateMove, turns, perform, nodes_evaluateAdvance]
    rfl
  | _ => rfl

/-- What settling does to a consumer and what comes of it, as long as it takes no more rounds
than allowed. -/
def settleTurns? (asker : Nat) : Nat → Simulation → Option (List Turn × Simulation)
  | 0, _ => none
  | rounds + 1, simulation =>
    match simulation.exchange with
    | (0, next) => some (turnsOf asker simulation simulation.exchangeMoves, next)
    | (_ + 1, next) => (settleTurns? asker rounds next).map fun later =>
        (turnsOf asker simulation simulation.exchangeMoves ++ later.1, later.2)

theorem turnsOf_settleMoves (settled : settleTurns? asker rounds simulation = some (turns, last)) :
    turnsOf asker simulation simulation.settleMoves = turns ∧
      simulation.follow simulation.settleMoves = last := by
  rw [← settle_eq_follow]
  induction rounds generalizing simulation turns with
  | zero => cases settled
  | succ rounds ih =>
    rw [settleTurns?] at settled
    split at settled
    · rename_i next exchanged
      cases settled
      obtain ⟨ends, parts⟩ := settle_of_still exchanged
      exact ⟨by rw [parts], ends⟩
    · rename_i count next exchanged
      obtain ⟨⟨later, final⟩, rest, same⟩ := Option.map_eq_some_iff.mp settled
      cases same
      obtain ⟨ends, parts⟩ := settle_of_answered exchanged
      obtain ⟨isLater, isLast⟩ := ih rest
      rw [parts, turnsOf_append, ← exchange_eq_follow, exchanged, isLater, ends]
      exact ⟨rfl, isLast⟩

/-- What one step does to a consumer and what comes of it, once it is known what comes first. -/
def stepTurns? (asker rounds : Nat) (simulation : Simulation) (first : Move) :
    Option (List Turn × Simulation) :=
  (settleTurns? asker rounds (simulation.evaluateMove asker first).2).map fun settled =>
    ((simulation.evaluateMove asker first).1 ++ settled.1, settled.2)

theorem turnsOf_movesFrom {first : Move}
    (steps : stepTurns? asker rounds simulation first = some (turns, last)) :
    turnsOf asker simulation (simulation.movesFrom first) = turns ∧
      simulation.follow (simulation.movesFrom first) = last := by
  obtain ⟨⟨later, final⟩, settled, same⟩ := Option.map_eq_some_iff.mp steps
  rw [evaluateMove_eq] at settled same
  cases same
  obtain ⟨isLater, isLast⟩ := turnsOf_settleMoves settled
  rw [movesFrom, turnsOf, isLater]
  exact ⟨rfl, isLast⟩

/-- What a run does to a consumer as far as the budget goes, as long as no step of it takes more
rounds than allowed. -/
def turnsWithin? (asker rounds : Nat) : Nat → Simulation → Option (List Turn)
  | 0, _ => some []
  | budget + 1, simulation =>
    match simulation.firstMove? with
    | some first => (stepTurns? asker rounds simulation first).bind fun step =>
        (turnsWithin? asker rounds budget step.2).map (step.1 ++ ·)
    | none => (stepTurns? asker rounds simulation (.advance simulation.stop)).map
        (·.1 ++ [.expire simulation.stop])

theorem turnsOf_moves (within : turnsWithin? asker rounds budget simulation = some turns) :
    turnsOf asker simulation (simulation.moves budget) = turns := by
  induction budget generalizing simulation turns with
  | zero =>
    cases within
    rfl
  | succ budget ih =>
    rw [turnsWithin?] at within
    rw [moves, next?_eq_firstMove?]
    cases next : simulation.firstMove? with
    | some first =>
      rw [next] at within
      obtain ⟨⟨here, middle⟩, step, rest⟩ := Option.bind_eq_some_iff.mp within
      obtain ⟨later, isLater, rfl⟩ := Option.map_eq_some_iff.mp rest
      obtain ⟨isHere, isMiddle⟩ := turnsOf_movesFrom step
      dsimp only
      rw [turnsOf_append, isHere, isMiddle, ih isLater]
    | none =>
      rw [next] at within
      obtain ⟨⟨here, final⟩, step, rfl⟩ := Option.map_eq_some_iff.mp within
      obtain ⟨isHere, _⟩ := turnsOf_movesFrom step
      dsimp only
      rw [lastMoves, turnsOf_append, isHere]
      rfl

end Evaluation

variable {scenario : Scenario}

/-- Consumers recognise answers. What Data a node hands to the face of a consumer, the consumer
takes in at the same time. A pending request that the Data answers is settled by it and counted as
satisfied, once and for all, if it has the very name of the Data or no consumer asks for anything
under it. -/
theorem answers_are_recognised_unless_nested (passed : scenario.check = .ok ())
    (spans : ∀ setting ∈ scenario.consumers, setting.interval?.isSome = true)
    (nonces : NonceSource) :
    ∃ start, ofScenario scenario nonces = .ok start ∧
      List.Forall₂ scenario.Asks scenario.consumers start.consumers ∧
      ∀ budget, (∀ final, start.run? budget = some final → final = start.follow (start.moves budget)) ∧
        ∀ asker first, start.consumers[asker]? = some first →
          ∃ turns last, turns = turnsOf asker start (start.moves budget) ∧
            (start.follow (start.moves budget)).consumers[asker]? = some last ∧
            last = first.follow turns ∧
            last.satisfied = (throughout answers first turns).length ∧
            last.timedOut = (throughout losses first turns).length ∧
            turns.filterMap receipt? =
              dataAmong (queued first.node first.face start (start.moves budget)) ∧
            ∀ {earlier : List Turn} {data : Data} {now : Instant} {later : List Turn},
              turns = earlier ++ .receive data now :: later →
              ∀ {request : Name} {time : Instant},
                (first.follow earlier).pending[request]? = some time →
                request.isPrefixOf data.name = true →
                (request = data.name ∨
                  ∀ other ∈ start.consumers, request.isPrefixOf other.under = false) →
                first.Recognises earlier data now later request := by
  obtain ⟨start, made, setUp⟩ := exists_ofScenario passed spans nonces
  refine ⟨start, made, setUp.asks, fun budget =>
    ⟨fun final ended => run?_eq_follow ended, fun asker first found => ?_⟩⟩
  have allowed := allowed_moves setUp.settled budget
  have begins := setUp.punctual found
  have last := begins.follow setUp.orderly allowed
  have listed : start.layout.askers[asker]? = some (first.node, first.face) := begins.listed
  have receipts := setUp.orderly.receipts allowed listed
  rw [setUp.settled.noData listed, (settled_moves setUp.settled budget).noData (by
    rw [layout_follow]; exact listed), List.map_nil, List.map_nil, List.nil_append,
    List.append_nil] at receipts
  refine ⟨_, _, rfl, last.found, rfl, last.accounts.satisfied, last.accounts.timedOut, receipts.symm,
    fun {earlier data now later} split {request time} waits extends' plain => ?_⟩
  have same : request = data.name := by
    rcases plain with same | plain
    · exact same
    · have received : .receive data now ∈ turnsOf asker start (start.moves budget) := by
        rw [split]
        exact List.mem_append_right _ List.mem_cons_self
      obtain ⟨other, member, number, named⟩ := setUp.mayBeAsked received
      rw [named] at extends'
      rcases Name.eq_or_prefix_of_appendSequence extends' with same | under
      · rw [same, named]
      · rw [plain other member] at under
        cases under
  subst same
  exact begins.accounts.recognises waits

deriving instance DecidableEq for Consumer.Turn

/-- A consumer has asked once, at the start. -/
def asksOnce : List Turn := [.expire .zero, .issue .zero 1364076727]

/-- Two neighbours for a moment, in which one Data comes across. -/
def briefly : Scenario :=
  { neighbours with duration := 50, producers := [{ node := "b", under := "/news", payloadSize := 1 }] }

/-- The Data of the name `/news/0`. -/
def headline : Data := { name := ⟨[[110, 101, 119, 115], [48]]⟩, content := [0] }

theorem answers_are_recognised_between_neighbours : briefly.check = .ok () ∧
    (∀ setting ∈ briefly.consumers, setting.interval?.isSome = true) ∧
    ∃ start first, ofScenario briefly (.scrambled 1) = .ok start ∧ start.consumers = [first] ∧
      first.Recognises asksOnce headline (Duration.ofMillis 10) [.expire (Duration.ofMillis 50)]
        headline.name := by
  have passed : briefly.check = .ok () := by decide +kernel
  have spans : ∀ setting ∈ briefly.consumers, setting.interval?.isSome = true := by decide +kernel
  obtain ⟨start, made, each, recognises⟩ :=
    answers_are_recognised_unless_nested passed spans (.scrambled 1)
  obtain ⟨first, rest, asks, none, isFirst⟩ := List.forall₂_cons_left_iff.mp each
  cases List.forall₂_nil_left_iff.mp none
  have evaluated : (ofScenario briefly (.scrambled 1)).toOption.bind (turnsWithin? 0 5 50) =
      some (asksOnce ++ .receive headline (Duration.ofMillis 10) ::
        [.expire (Duration.ofMillis 50)]) := by
    decide +kernel
  have pending : ((ofScenario briefly (.scrambled 1)).toOption.bind (·.consumers[0]?)).bind
      (fun first => (first.follow asksOnce).pending[headline.name]?) = some .zero := by
    decide +kernel
  have under : ((ofScenario briefly (.scrambled 1)).toOption.map fun start =>
      start.consumers.all fun other => !headline.name.isPrefixOf other.under) = some true := by
    decide +kernel
  have found : start.consumers[0]? = some first := by rw [isFirst]; rfl
  rw [made] at evaluated pending under
  change start.consumers[0]?.bind _ = _ at pending
  rw [found] at pending
  have plain : ∀ other ∈ start.consumers, headline.name.isPrefixOf other.under = false :=
    fun other member => by simpa using List.all_eq_true.mp (Option.some.inj under) other member
  obtain ⟨turns, last, isTurns, _, _, _, _, _, takes⟩ := (recognises 50).2 0 first found
  rw [turnsOf_moves evaluated] at isTurns
  exact ⟨passed, spans, start, first, made, isFirst,
    takes isTurns pending (by decide) (Or.inr plain)⟩

/-- One consumer asks under what another one asks for, and only that is there. -/
def nested : Scenario where
  duration := 500
  nodes := [{ name := "a" }, { name := "b" }]
  links := [{ a := "a", b := "b", delay := 5 }]
  routes := [{ node := "a", under := "/a", nextHop := "b" }]
  consumers := [
    { node := "a", under := "/a", frequency := Binary64.ofNat 1, lifetime := 200 },
    { node := "a", under := "/a/0", frequency := Binary64.ofNat 1, lifetime := 200 }]
  producers := [{ node := "b", under := "/a/0/0", payloadSize := 1 }]

/-- The name `/a/0`, which the first consumer asks for. -/
def shorter : Name := ⟨[[97], [48]]⟩

/-- The Data of the name `/a/0/0`, which the second consumer asks for. -/
def longer : Data := { name := ⟨[[97], [48], [48]]⟩, content := [0] }

/-- A consumer takes Data in that answers its request, and goes on waiting. In the end it counts
the request as timed out, while its node counts both Interests as satisfied. -/
theorem nested_answer_is_not_recognised : nested.check = .ok () ∧ shorter.isPrefixOf longer.name = true ∧
    ∃ start first final turns, ofScenario nested (.scrambled 1) = .ok start ∧
      start.consumers[0]? = some first ∧ start.run? 50 = some final ∧
      turns = turnsOf 0 start (start.moves 50) ∧
      turns = asksOnce ++ .receive longer (Duration.ofMillis 10) :: [.expire (Duration.ofMillis 500)] ∧
      shorter ∈ (first.follow asksOnce).pending ∧
      shorter ∈ ((first.follow asksOnce).receive longer (Duration.ofMillis 10)).pending ∧
      throughout losses first turns = [shorter] ∧
      final.report.consumers.map (fun report => (report.sent, report.satisfied, report.timedOut)) =
        [(1, 0, 1), (1, 1, 0)] ∧
      final.report.nodes.map (fun report =>
        (report.counters.satisfiedInterests, report.counters.unsatisfiedInterests)) =
          [(2, 0), (2, 0)] := by
  have evaluated : (ofScenario nested (.scrambled 1)).toOption.bind (turnsWithin? 0 5 50) =
      some (asksOnce ++ .receive longer (Duration.ofMillis 10) ::
        [.expire (Duration.ofMillis 500)]) := by
    decide +kernel
  have misses : ((ofScenario nested (.scrambled 1)).toOption.bind (·.consumers[0]?)).map
      (fun first => (decide (shorter ∈ (first.follow asksOnce).pending),
        decide (shorter ∈ ((first.follow asksOnce).receive longer (Duration.ofMillis 10)).pending),
        throughout losses first (asksOnce ++ .receive longer (Duration.ofMillis 10) ::
          [.expire (Duration.ofMillis 500)]))) = some (true, true, [shorter]) := by
    decide +kernel
  have reported : ((ofScenario nested (.scrambled 1)).toOption.bind (runWithin? 5 50)).map
      (fun final => (final.report.consumers.map fun report =>
          (report.sent, report.satisfied, report.timedOut),
        final.report.nodes.map fun report =>
          (report.counters.satisfiedInterests, report.counters.unsatisfiedInterests))) =
      some ([(1, 0, 1), (1, 1, 0)], [(2, 0), (2, 0)]) := by
    decide +kernel
  cases made : ofScenario nested (.scrambled 1) with
  | error =>
    rw [made] at evaluated
    cases evaluated
  | ok start =>
    rw [made] at evaluated misses reported
    obtain ⟨first, found, missed⟩ := Option.map_eq_some_iff.mp misses
    obtain ⟨final, ended, counts⟩ := Option.map_eq_some_iff.mp reported
    simp only [Prod.mk.injEq, decide_eq_true_eq] at missed counts
    refine ⟨by decide +kernel, by decide, start, first, final, _, rfl, found, run?_of_within ended, rfl,
      turnsOf_moves evaluated, missed.1, missed.2.1, ?_, counts.1, counts.2⟩
    rw [turnsOf_moves evaluated]
    exact missed.2.2

end Simulation

end NamedData
