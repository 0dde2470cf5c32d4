import Mathlib.Algebra.Order.BigOperators.Group.List
import Mathlib.Algebra.Order.Group.Nat
import NamedData.Proofs.Punctuality

namespace NamedData

namespace Consumer

variable {consumer : Consumer} {now : Instant}

/-- An answer is in time: it came after less than the lifetime of the request, or at
once when that is nothing. -/
def Answer.Prompt (answer : Answer) (lifetime : Duration) : Prop :=
  answer.asked ≤ answer.answered ∧
    (answer.wait < lifetime ∨ lifetime.nanos = 0 ∧ answer.answered = answer.asked)

theorem Answer.prompt {answer : Answer} {lifetime : Duration} (passed : answer.asked ≤ answer.answered)
    (timely : answer.answered = answer.asked ∨ answer.answered < answer.asked + lifetime) :
    answer.Prompt lifetime := by
  refine ⟨passed, ?_⟩
  rw [wait, Duration.lt_def, Duration.nanos_sub]
  rcases timely with atOnce | before
  · rcases Nat.eq_zero_or_pos lifetime.nanos with none | some
    · exact Or.inr ⟨none, atOnce⟩
    · rw [atOnce, Nat.sub_self]
      exact Or.inl some
  · rw [Duration.lt_def, Duration.nanos_add] at before
    rw [Duration.le_def] at passed
    exact Or.inl (by omega)

theorem Answer.Prompt.wait_le {answer : Answer} {lifetime : Duration} (prompt : answer.Prompt lifetime) :
    answer.wait.nanos ≤ lifetime.nanos := by
  rcases prompt.2 with before | ⟨_, atOnce⟩
  · exact Nat.le_of_lt before
  · rw [wait, Duration.nanos_sub, atOnce, Nat.sub_self]
    exact Nat.zero_le _

/-- A consumer whose answers are all in time has waited for no more than the lifetime
each time. -/
theorem Accounts.waited_le {asked : List (Name × Instant)} {answered : List Answer}
    {lost : List Name} (accounts : consumer.Accounts asked answered lost) {lifetime : Duration}
    (prompt : ∀ answer ∈ answered, answer.Prompt lifetime) :
    consumer.waited ≤ consumer.satisfied * lifetime.nanos := by
  rw [accounts.waited, accounts.satisfied, ← List.length_map (f := fun answer : Answer => answer.wait.nanos)]
  refine List.sum_le_card_nsmul _ _ fun wait listed => ?_
  obtain ⟨answer, member, rfl⟩ := List.mem_map.mp listed
  exact (prompt answer member).wait_le

theorem follow_append (earlier later : List Turn) :
    consumer.follow (earlier ++ later) = (consumer.follow earlier).follow later :=
  List.foldl_append

theorem throughout_append {α : Type} (brings : Consumer → Turn → List α) (earlier later : List Turn) :
    throughout brings consumer (earlier ++ later) =
      throughout brings consumer earlier ++ throughout brings (consumer.follow earlier) later := by
  induction earlier generalizing consumer with
  | nil => rfl
  | cons turn rest ih => rw [List.cons_append, throughout, throughout, ih, List.append_assoc]; rfl

theorem asks_receives (replies : List Data) :
    throughout asks consumer (replies.map (.receive · now)) = [] := by
  induction replies generalizing consumer with
  | nil => rfl
  | cons first rest ih => exact ih

theorem answers_receives {replies : List Data} {answer : Answer}
    (counted : answer ∈ throughout answers consumer (replies.map (.receive · now))) :
    answer.answered = now ∧ ∃ data ∈ replies, data.name = answer.name := by
  induction replies generalizing consumer with
  | nil => cases counted
  | cons first rest ih =>
    rcases List.mem_append.mp counted with here | later
    · obtain ⟨time, _, rfl⟩ := Option.map_eq_some_iff.mp (Option.mem_toList.mp here)
      exact ⟨rfl, first, List.mem_cons_self, rfl⟩
    · obtain ⟨onTime, data, member, name⟩ := ih later
      exact ⟨onTime, data, List.mem_cons_of_mem _ member, name⟩

end Consumer

namespace Simulation

open Consumer (Answer Turn throughout asks answers losses)

variable {simulation : Simulation} {asker : Nat} {consumer : Consumer} {move : Move}
  {asked : List (Name × Instant)} {answered : List Answer} {lost : List Name}

/-- What moves do to the consumer at a place. -/
def turnsOf (asker : Nat) : Simulation → List Move → List Turn
  | _, [] => []
  | simulation, move :: rest =>
    simulation.turns asker move ++ turnsOf asker (simulation.perform move) rest

/-- It is this consumer's turn to ask. -/
def IsTurn (simulation : Simulation) (asker : Nat) (move : Move) : Prop :=
  ∃ timer rest, move = .happen ∧ simulation.timers.popDue? simulation.now = some (timer, rest) ∧
    timer.payload = .tick asker

/-- A consumer that has its turn gives up what took too long and asks again. -/
theorem IsTurn.asks (turn : simulation.IsTurn asker move)
    (found : simulation.consumers[asker]? = some consumer) : ∃ nonce,
    simulation.turns asker move = [.expire simulation.now, .issue simulation.now nonce] ∧
      simulation.calls consumer.node move = [.receiveInterest consumer.face
        ((consumer.expire simulation.now).issue simulation.now nonce).1] := by
  obtain ⟨timer, rest, rfl, popped, event⟩ := turn
  have clock : rest.now = simulation.now := by
    have same := @now_leftBy simulation .happen fun _ same => by cases same
    simp only [leftBy, popped] at same
    exact same
  refine ⟨simulation.nonces.next.1, ?_, ?_⟩
  · simp only [turns, popped, event, eventTurns, if_true]
    rw [← clock]
    rfl
  · simp only [calls, popped, event, eventCalls, found, if_true]
    rw [← clock]
    rfl

/-- Other than in its turn a consumer only gives up what took too long, or takes the
Data that waits for it. -/
theorem turns_of_not_isTurn (other : ¬ simulation.IsTurn asker move)
    (found : simulation.consumers[asker]? = some consumer) :
    simulation.turns asker move = [] ∨ (∃ time, simulation.turns asker move = [.expire time]) ∨
      simulation.turns asker move =
        (repliesTo simulation.nodes consumer).map (.receive · simulation.now) := by
  cases move with
  | feed place =>
    by_cases here : place = asker
    · subst here
      refine Or.inr (Or.inr ?_)
      simp only [turns, found, if_true]
    · refine Or.inl ?_
      simp only [turns, if_neg here]
      split <;> rfl
  | happen =>
    refine Or.inl ?_
    cases popped : simulation.timers.popDue? simulation.now with
    | none => simp only [turns, popped]
    | some due =>
      obtain ⟨timer, rest⟩ := due
      simp only [turns, popped]
      cases event : timer.payload with
      | tick place =>
        refine if_neg fun here => other ⟨timer, rest, rfl, popped, ?_⟩
        rw [event, here]
      | delivery node face packet => rfl
  | giveUp time => exact Or.inr (Or.inl ⟨time, rfl⟩)
  | sendOff => exact Or.inl rfl
  | serve => exact Or.inl rfl
  | advance => exact Or.inl rfl

/-- No two consumers have the same face. -/
theorem Orderly.eq_of_own (orderly : simulation.Orderly) {place other : Nat} {face : FaceId}
    (listed : simulation.layout.askers[asker]? = some (place, face))
    (found : simulation.consumers[other]? = some consumer)
    (own : (consumer.node, consumer.face) = (place, face)) : asker = other := by
  have distinct := (List.nodup_append.mp orderly.proper.apps).1
  have listed' : simulation.layout.askers[other]? = some (place, face) := by
    rw [layout, List.getElem?_map, found, ← own]
    rfl
  have bound := (List.getElem?_eq_some_iff.mp listed).1
  exact (List.getElem?_inj bound distinct).mp (listed.trans listed'.symm)

/-- Only the consumer itself asks on its face. -/
theorem Orderly.isTurn (orderly : simulation.Orderly) {place : Nat} {face : FaceId}
    (listed : simulation.layout.askers[asker]? = some (place, face)) {interest : Interest}
    (called : .receiveInterest face interest ∈ simulation.calls place move) :
    simulation.IsTurn asker move := by
  have still : ∀ time, move ≠ .advance time := by
    rintro time rfl
    rcases mem_calls_advance called with fires | passes
    · cases fires
    · cases passes
  obtain ⟨source, causes⟩ := causes_of_calls still called
  cases causes with
  | @ask timer rest other consumer _ popped event found own =>
    exact ⟨timer, rest, rfl, popped, by rw [event, orderly.eq_of_own listed found own]⟩
  | request _ popped event =>
    obtain ⟨running, _, _⟩ := Timers.popDue?_eq_some popped
    rw [event] at running
    obtain ⟨linkEnd, member, same⟩ := orderly.bound running
    have app := List.mem_append_left simulation.layout.answerers (List.mem_of_getElem? listed)
    rw [← same] at app
    exact absurd app (orderly.proper.apart member)

/-- What is known of a consumer at any time: its accounts are in order, its node keeps
nothing for it beyond the lifetime of the request, and so every answer was in time. -/
structure Punctual (simulation : Simulation) (asker : Nat) (first : Consumer) (turns : List Turn) :
    Prop where
  found : simulation.consumers[asker]? = some (first.follow turns)
  accounts : (first.follow turns).Accounts (throughout asks first turns)
    (throughout answers first turns) (throughout losses first turns)
  inTime : ∀ {node : Node}, simulation.nodes[first.node]? = some node →
    node.forwarder.InTime first.face first.lifetime (throughout asks first turns)
  past : ∀ request ∈ throughout asks first turns, request.2 ≤ simulation.now
  prompt : ∀ answer ∈ throughout answers first turns, answer.Prompt first.lifetime

variable {first : Consumer} {turns : List Turn}

theorem Punctual.listed (punctual : simulation.Punctual asker first turns) :
    simulation.layout.askers[asker]? = some (first.node, first.face) := by
  obtain ⟨node, face, _⟩ := kept_follow first turns
  rw [layout, List.getElem?_map, punctual.found, Option.map_some, node, face]

/-- The accounts go on with what a consumer does next. -/
theorem Punctual.accounts_follow (punctual : simulation.Punctual asker first turns)
    (more : List Turn) : (first.follow (turns ++ more)).Accounts (throughout asks first (turns ++ more))
      (throughout answers first (turns ++ more)) (throughout losses first (turns ++ more)) := by
  have later := punctual.accounts.follow more
  rw [Consumer.throughout_append, Consumer.throughout_append, Consumer.throughout_append,
    Consumer.follow_append]
  exact later

section Step

variable (punctual : simulation.Punctual asker first turns) (orderly : simulation.Orderly)

include punctual

/-- A move keeps a consumer in order if it does so at the node. -/
theorem Punctual.moved
    (inTime : ∀ {node : Node}, simulation.nodes[first.node]? = some node →
      (node.forwarder.run (simulation.calls first.node move)).InTime first.face first.lifetime
        (throughout asks first (turns ++ simulation.turns asker move)))
    (past : ∀ request ∈ throughout asks (first.follow turns) (simulation.turns asker move),
      request.2 ≤ simulation.now)
    (prompt : ∀ answer ∈ throughout answers (first.follow turns) (simulation.turns asker move),
      answer.Prompt first.lifetime) :
    (simulation.perform move).Punctual asker first (turns ++ simulation.turns asker move) := by
  refine ⟨?_, punctual.accounts_follow _, fun {here} atPlace => ?_, fun request member => ?_,
    fun answer member => ?_⟩
  · rw [consumers_perform, punctual.found, Consumer.follow_append]
    rfl
  · rw [nodes_perform] at atPlace
    obtain ⟨old, was, rfl⟩ := Option.map_eq_some_iff.mp atPlace
    exact inTime was
  · rw [Consumer.throughout_append] at member
    refine Nat.le_trans ?_ (now_le_perform move)
    rcases List.mem_append.mp member with old | new
    · exact punctual.past request old
    · exact past request new
  · rw [Consumer.throughout_append] at member
    rcases List.mem_append.mp member with old | new
    · exact punctual.prompt answer old
    · exact prompt answer new

include orderly

/-- A new request has a name that was never asked for, so nothing that waits is late
for it. -/
theorem Punctual.ask (turn : simulation.IsTurn asker move) :
    (simulation.perform move).Punctual asker first (turns ++ simulation.turns asker move) := by
  obtain ⟨node, face, _, lifetime⟩ := kept_follow first turns
  obtain ⟨nonce, isTurns, called⟩ := turn.asks punctual.found
  obtain ⟨request, isRequest⟩ : ∃ request, request =
    (((first.follow turns).expire simulation.now).issue simulation.now nonce).1 := ⟨_, rfl⟩
  rw [node, face, ← isRequest] at called
  have new : throughout asks (first.follow turns) (simulation.turns asker move) =
      [(request.name, simulation.now)] := by
    rw [isTurns, isRequest]
    rfl
  have none : throughout answers (first.follow turns) (simulation.turns asker move) = [] := by
    rw [isTurns]
    rfl
  have lasts : request.lifetime = some first.lifetime := by
    rw [isRequest, ← lifetime]
    rfl
  have apart := (punctual.accounts_follow (simulation.turns asker move)).apart
  refine punctual.moved (fun was => ?_) (fun other member => ?_) (by rw [none]; exact nofun)
  · rw [Consumer.throughout_append, new, ← orderly.clock was] at apart ⊢
    rw [called]
    exact (punctual.inTime was).request (orderly.sound was) lasts apart
  · rw [new] at member
    rw [List.mem_singleton.mp member]
    exact Nat.le_refl _

/-- The answers that a consumer counts are in time, as the Data that waits for it is. -/
theorem Punctual.prompt_of_not_isTurn (other : ¬ simulation.IsTurn asker move) :
    throughout asks (first.follow turns) (simulation.turns asker move) = [] ∧
      ∀ answer ∈ throughout answers (first.follow turns) (simulation.turns asker move),
        answer.Prompt first.lifetime := by
  obtain ⟨node, face, _⟩ := kept_follow first turns
  have accounts := punctual.accounts.follow (simulation.turns asker move)
  rcases turns_of_not_isTurn other punctual.found with isTurns | ⟨time, isTurns⟩ | isTurns <;>
    rw [isTurns] at accounts ⊢
  · exact ⟨rfl, nofun⟩
  · exact ⟨rfl, nofun⟩
  · rw [Consumer.asks_receives, List.append_nil] at accounts
    refine ⟨Consumer.asks_receives _, fun answer counted => ?_⟩
    have request := accounts.answeredAsked answer (List.mem_append_right _ counted)
    obtain ⟨onTime, data, replied, name⟩ := Consumer.answers_receives counted
    obtain ⟨here, was, waits⟩ := mem_repliesTo replied
    rw [← name] at request
    rw [node] at was
    rw [face] at waits
    have timely := (punctual.inTime was).timely data answer.asked waits request
    rw [orderly.clock was, ← onTime] at timely
    have passed : answer.asked ≤ answer.answered := by
      rw [onTime]
      exact punctual.past _ request
    exact Answer.prompt passed timely

/-- One move keeps a consumer in order. While others ask, nothing comes to be late for
it, and the clocks move on only when no Data waits for it. -/
theorem Punctual.perform (allowed : simulation.Allowed move) :
    (simulation.perform move).Punctual asker first (turns ++ simulation.turns asker move) := by
  by_cases turn : simulation.IsTurn asker move
  · exact punctual.ask orderly turn
  obtain ⟨quiet, prompt⟩ := punctual.prompt_of_not_isTurn orderly turn
  have others (interest : Interest) :
      .receiveInterest first.face interest ∉ simulation.calls first.node move :=
    fun called => turn (orderly.isTurn punctual.listed called)
  refine punctual.moved (fun {node} was => ?_) (by rw [quiet]; exact nofun) prompt
  have sound := orderly.sound was
  have inTime := punctual.inTime was
  rw [Consumer.throughout_append, quiet, List.append_nil]
  rcases move.still_or_advances with still | ⟨time, rfl⟩
  · refine inTime.run sound punctual.accounts.apart (fun action called => ?_) others
    obtain ⟨source, causes⟩ := causes_of_calls still called
    exact ⟨source, causes.on⟩
  · refine ⟨inTime.dated.run sound others, fun data since waits => ?_,
      sound.cacheFiled_run inTime.filed _⟩
    have settled := allowed.1.advance time
    have listed := List.mem_of_getElem? punctual.listed
    rw [← layout_perform (.advance time)] at listed
    have found : (simulation.perform (.advance time)).nodes[first.node]? = some { node with
        forwarder := node.forwarder.run (simulation.calls first.node (.advance time)) } := by
      rw [nodes_perform, was]
      rfl
    exact absurd ⟨_, found, .data data, waits, rfl⟩ (settled.askers listed)

end Step

theorem Punctual.follow (punctual : simulation.Punctual asker first turns)
    (orderly : simulation.Orderly) {moves : List Move} (allowed : Along Allowed simulation moves) :
    (simulation.follow moves).Punctual asker first (turns ++ turnsOf asker simulation moves) := by
  induction moves generalizing simulation turns with
  | nil =>
    rw [turnsOf, List.append_nil]
    exact punctual
  | cons move rest ih =>
    have later := ih (punctual.perform orderly allowed.1) (orderly.perform allowed.1) allowed.2
    rw [turnsOf, ← List.append_assoc]
    exact later

variable {scenario : Scenario} {links : List LinkSetting} {asking : List ConsumerSetting}

/-- A consumer starts with empty accounts. -/
theorem accounts_of_asks {setting : ConsumerSetting} (asks : scenario.Asks setting consumer) :
    consumer.Accounts [] [] [] := by
  obtain ⟨number, sent, pending⟩ := asks.unasked
  obtain ⟨satisfied, timedOut, waited⟩ := asks.unanswered
  refine ⟨by rw [number]; rfl, sent, satisfied, timedOut, waited, ?_, nofun, nofun, ?_, .nil, nofun⟩
  · rw [sent, satisfied, timedOut, pending]
    rfl
  · intro name time found
    rw [pending, Std.ExtTreeMap.getElem?_empty] at found
    cases found

theorem SetUp.punctual (setUp : SetUp scenario links asking simulation)
    (found : simulation.consumers[asker]? = some consumer) :
    simulation.Punctual asker consumer [] := by
  have untouched {node : Node} (was : simulation.nodes[consumer.node]? = some node) :=
    setUp.untouched (by rw [Simulation.forwarderAt?, was]; rfl : _ = some node.forwarder)
  obtain ⟨bound, same⟩ := List.getElem?_eq_some_iff.mp found
  obtain ⟨length, each⟩ := List.forall₂_iff_get.mp setUp.asks
  have asks := each asker (by rw [length]; exact bound) bound
  rw [List.get_eq_getElem, List.get_eq_getElem, same] at asks
  refine ⟨found, accounts_of_asks asks, fun was => ⟨?_, ?_, ?_⟩,
    fun _ member => (by cases member), fun _ member => (by cases member)⟩
  · intro id entry record here
    rw [(untouched was).pit] at here
    cases here
  · intro data time waits
    rw [(untouched was).outbox] at waits
    cases waits
  · intro name cached here
    rw [(untouched was).cached, Std.ExtTreeMap.getElem?_empty] at here
    cases here

/-- Consumers keep their accounts. However far a run has come, the requests that a consumer
has made are the answered ones, the ones it gave up and those that still wait. They all
have names of their own, none is both answered and given up, and each answer came in
time, so that all of them together took no longer than that many lifetimes. -/
theorem consumers_keep_accounts (passed : scenario.check = .ok ())
    (spans : ∀ setting ∈ scenario.consumers, setting.interval?.isSome = true)
    (nonces : NonceSource) :
    ∃ start, ofScenario scenario nonces = .ok start ∧
      List.Forall₂ scenario.Asks scenario.consumers start.consumers ∧
      ∀ budget, (∀ final, start.run? budget = some final → final = start.follow (start.moves budget)) ∧
        ∀ asker first, start.consumers[asker]? = some first →
          ∃ turns last, turns = turnsOf asker start (start.moves budget) ∧
            (start.follow (start.moves budget)).consumers[asker]? = some last ∧
            last = first.follow turns ∧
            last.sent = last.satisfied + last.timedOut + last.pending.size ∧
            last.Accounts (throughout asks first turns) (throughout answers first turns)
              (throughout losses first turns) ∧
            ((throughout asks first turns).map (·.1)).Nodup ∧
            ((throughout answers first turns).map (·.name) ++ throughout losses first turns).Nodup ∧
            (∀ answer ∈ throughout answers first turns,
              (answer.name, answer.asked) ∈ throughout asks first turns ∧
                answer.Prompt first.lifetime) ∧
            last.waited ≤ last.satisfied * first.lifetime.nanos := by
  obtain ⟨start, made, setUp⟩ := exists_ofScenario passed spans nonces
  refine ⟨start, made, setUp.asks, fun budget =>
    ⟨fun final ended => run?_eq_follow ended, fun asker first found => ?_⟩⟩
  have last := (setUp.punctual found).follow setUp.orderly (allowed_moves setUp.settled budget)
  obtain ⟨turns, isTurns⟩ : ∃ turns, turns = turnsOf asker start (start.moves budget) := ⟨_, rfl⟩
  rw [← isTurns, List.nil_append] at last
  refine ⟨turns, _, isTurns, last.found, rfl, last.accounts.balanced, last.accounts,
    last.accounts.distinct, last.accounts.once, fun answer member => ?_,
    last.accounts.waited_le last.prompt⟩
  exact ⟨last.accounts.answeredAsked answer member, last.prompt answer member⟩

/-- In a quarter of a second a consumer asks its neighbour three times, and each answer
comes 10 ms later. -/
theorem consumers_keep_accounts_between_neighbours : neighbours.check = .ok () ∧
    (∀ setting ∈ neighbours.consumers, setting.interval?.isSome = true) ∧
    ∃ start first final last, ofScenario { neighbours with duration := 250 } (.scrambled 1) = .ok start ∧
      start.consumers = [first] ∧ first.lifetime = Duration.ofMillis 2000 ∧
      start.run? 50 = some final ∧ final.consumers[0]? = some last ∧
      (last.sent, last.satisfied, last.timedOut, last.waited) = (3, 3, 0, 30000000) ∧
      last.sent = last.satisfied + last.timedOut + last.pending.size ∧
      last.Accounts (throughout asks first (turnsOf 0 start (start.moves 50)))
        (throughout answers first (turnsOf 0 start (start.moves 50)))
        (throughout losses first (turnsOf 0 start (start.moves 50))) ∧
      (∀ answer ∈ throughout answers first (turnsOf 0 start (start.moves 50)),
        answer.Prompt first.lifetime) ∧
      last.waited ≤ last.satisfied * 2000000000 := by
  have passed : neighbours.check = .ok () := by decide +kernel
  have spans : ∀ setting ∈ neighbours.consumers, setting.interval?.isSome = true := by
    decide +kernel
  obtain ⟨start, made, each, accounts⟩ := @consumers_keep_accounts
    { neighbours with duration := 250 } passed spans (.scrambled 1)
  have busy : ((ofScenario { neighbours with duration := 250 } (.scrambled 1)).toOption.bind
      (runWithin? 5 50)).map (·.consumers.map fun consumer =>
        (consumer.sent, consumer.satisfied, consumer.timedOut, consumer.waited)) =
          some [(3, 3, 0, 30000000)] := by
    decide +kernel
  rw [made] at busy
  obtain ⟨final, returns, counts⟩ := Option.map_eq_some_iff.mp busy
  have ended : start.run? 50 = some final := run?_of_within returns
  obtain ⟨first, rest, asks, none, isFirst⟩ := List.forall₂_cons_left_iff.mp each
  cases List.forall₂_nil_left_iff.mp none
  obtain ⟨isFinal, keeps⟩ := accounts 50
  obtain ⟨_, last, rfl, found, _, balanced, kept, _, _, prompt, waited⟩ :=
    keeps 0 first (by rw [isFirst]; rfl)
  rw [← isFinal final ended] at found
  have count := congrArg (·[0]?) counts
  simp only [List.getElem?_map, found] at count
  rw [asks.lifetime] at waited
  exact ⟨passed, spans, start, first, final, last, made, isFirst, asks.lifetime, ended, found,
    Option.some.inj count, balanced, kept, fun answer member => (prompt answer member).2, waited⟩

end Simulation

end NamedData
