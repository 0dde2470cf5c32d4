import NamedData.Proofs.Consultation
import NamedData.Proofs.Counting

namespace NamedData

/-- The host itself sends or gives up an Interest that waits, which is for the strategies
to do. -/
def Action.bypassesStrategies : Action → Bool
  | .sendInterest .. | .reject _ => true
  | _ => false

/-- A call of the outgoing Interest pipeline, and the forwarder as the call finds it. -/
structure OutgoingCall where
  found : Forwarder
  id : PitId
  face : FaceId
  hint : Option String
  newNonce : Bool

namespace OutgoingCall

/-- What the call hands out. -/
def handed (call : OutgoingCall) : List (FaceId × Packet) :=
  call.found.sends (.sendInterest call.id call.face call.hint call.newNonce)

/-- The call finds the entry, some downstream in it, and no scope that it would cross. -/
def InOrder (call : OutgoingCall) : Prop :=
  ∃ entry, call.found.pit.get? call.id = some entry ∧ entry.inRecords ≠ [] ∧
    call.found.violatesScope entry call.face = false

/-- What a call hands out, it puts into the outbox, and that is Interests. -/
theorem sent_handed (call : OutgoingCall) :
    (call.found.sendInterest call.id call.face call.hint call.newNonce).outbox.sent =
      call.found.outbox.sent ++ call.handed ∧
    call.handed.filter (·.2.isInterest) = call.handed := by
  have hands {packets : List (FaceId × Packet)}
      (sent : (call.found.sendInterest call.id call.face call.hint call.newNonce).outbox.sent =
        call.found.outbox.sent ++ packets) : call.handed = packets :=
    Forwarder.HandsOut.sends_eq (.sendsInterest call.id call.face call.hint call.newNonce) sent
  rcases call.found.sent_sendInterest call.id call.face call.hint call.newNonce with
    ⟨same, _⟩ | ⟨_, _, request, _, _, _, _, _, sent, _⟩
  · have sent := (congrArg Outbox.sent same).trans (List.append_nil _).symm
    rw [hands sent]
    exact ⟨sent, rfl⟩
  · rw [hands sent]
    exact ⟨sent, rfl⟩

end OutgoingCall

/-- A forwarder, and the calls of its outgoing Interest pipeline so far. -/
structure Watched where
  forwarder : Forwarder
  calls : List OutgoingCall := []

namespace Watched

/-- A change without such a call. -/
def apply (watched : Watched) (change : Forwarder → Forwarder) : Watched :=
  { watched with forwarder := change watched.forwarder }

def sendInterest (watched : Watched) (id : PitId) (face : FaceId) (hint : Option String)
    (newNonce : Bool) : Watched where
  forwarder := watched.forwarder.sendInterest id face hint newNonce
  calls := watched.calls ++ [⟨watched.forwarder, id, face, hint, newNonce⟩]

def flood (watched : Watched) (id : PitId) (hops : List NextHop) : Watched :=
  hops.foldl (fun watched hop =>
    if watched.forwarder.canForward id hop.face then
      watched.sendInterest id hop.face hop.targetHint false
    else watched) watched

def afterReceiveInterest (strategy : Strategy) (watched : Watched) (route : FibEntry)
    (id : PitId) : Watched :=
  match strategy with
  | .multicast =>
    let flooded := watched.flood id route.nextHops
    if flooded.forwarder.hasUnexpiredOutRecords id then flooded else flooded.apply (·.reject id)
  | .bestRoute _ =>
    if watched.forwarder.hasUnexpiredOutRecords id then watched
    else
      match route.nextHops.find? fun hop => watched.forwarder.canForward id hop.face with
      | some hop => watched.sendInterest id hop.face hop.targetHint false
      | none => watched.apply (·.reject id)

def askOnward (watched : Watched) (id : PitId) (face : FaceId) (interest : Interest) : Watched :=
  let waiting := watched.apply fun forwarder =>
    (forwarder.addInRecord id face interest).setUnsatisfyTimer id
  afterReceiveInterest (waiting.forwarder.strategies.effective interest.name) waiting
    (waiting.forwarder.fib.longestPrefixMatch interest.name) id

def handleRequest (watched : Watched) (face : FaceId) (interest : Interest) : Watched :=
  let id := (watched.forwarder.pit.insert interest.name).1
  let reopened := watched.apply (·.reopen interest.name)
  if (reopened.forwarder.pit.get? id).any (·.hasUnexpiredInRecords reopened.forwarder.now) then
    reopened.askOnward id face interest
  else
    match reopened.forwarder.contentStore.find? interest reopened.forwarder.now with
    | some data =>
      reopened.apply fun forwarder =>
        (forwarder.count fun counters => { counters with cacheHits := counters.cacheHits + 1 }
          ).answerFromCache id face interest data
    | none =>
      (reopened.apply fun forwarder =>
        forwarder.count fun counters => { counters with cacheMisses := counters.cacheMisses + 1 }
        ).askOnward id face interest

/-- Only a request gets as far as the strategy. -/
def receiveInterest (watched : Watched) (face : FaceId) (interest : Interest) : Watched :=
  match watched.forwarder.judge face interest with
  | .request kept => (watched.apply Forwarder.received).handleRequest face kept
  | _ => watched.apply (·.receiveInterest face interest)

def act (watched : Watched) : Action → Watched
  | .receiveInterest face interest => watched.receiveInterest face interest
  | .sendInterest id face hint newNonce => watched.sendInterest id face hint newNonce
  | action => watched.apply (·.act action)

variable {watched : Watched} {id : PitId} {face : FaceId} {interest : Interest}

/-- Watching a forwarder changes nothing about it. -/
theorem forwarder_flood (hops : List NextHop) :
    (watched.flood id hops).forwarder = Strategy.flood watched.forwarder id hops := by
  unfold flood Strategy.flood
  induction hops generalizing watched with
  | nil => rfl
  | cons first rest ih =>
    rw [List.foldl_cons, List.foldl_cons, ih]
    split <;> rfl

theorem forwarder_afterReceiveInterest (strategy : Strategy) (route : FibEntry) :
    (afterReceiveInterest strategy watched route id).forwarder =
      strategy.afterReceiveInterest watched.forwarder route id := by
  cases strategy with
  | multicast =>
    simp only [afterReceiveInterest, Strategy.afterReceiveInterest, forwarder_flood]
    split
    · exact forwarder_flood _
    · show ((watched.flood id route.nextHops).forwarder).reject id = _
      rw [forwarder_flood]
  | bestRoute penalty =>
    simp only [afterReceiveInterest, Strategy.afterReceiveInterest]
    split
    · rfl
    · cases route.nextHops.find? fun hop => watched.forwarder.canForward id hop.face <;> rfl

theorem forwarder_askOnward :
    (watched.askOnward id face interest).forwarder =
      watched.forwarder.askOnward id face interest :=
  forwarder_afterReceiveInterest _ _

theorem forwarder_handleRequest :
    (watched.handleRequest face interest).forwarder =
      watched.forwarder.handleRequest face interest := by
  unfold handleRequest Forwarder.handleRequest
  dsimp only [apply]
  rw [apply_ite Watched.forwarder, ← Forwarder.reopen]
  refine ite_congr rfl (fun _ => forwarder_askOnward) fun _ => ?_
  cases (watched.forwarder.reopen interest.name).contentStore.find? interest
      (watched.forwarder.reopen interest.name).now with
  | some data => rfl
  | none => exact forwarder_askOnward

theorem forwarder_receiveInterest :
    (watched.receiveInterest face interest).forwarder =
      watched.forwarder.receiveInterest face interest := by
  unfold receiveInterest
  split
  · rename_i kept judged
    rw [Forwarder.receiveInterest_request judged]
    exact forwarder_handleRequest
  · rfl

theorem forwarder_act (action : Action) :
    (watched.act action).forwarder = watched.forwarder.act action := by
  cases action with
  | receiveInterest face interest => exact forwarder_receiveInterest
  | _ => rfl

end Watched

namespace Forwarder

variable {forwarder before after : Forwarder} {id : PitId} {face : FaceId} {action : Action}

/-- What is handed out in between is Data. -/
def AsksNothing (before after : Forwarder) : Prop :=
  ∃ packets, after.outbox.sent = before.outbox.sent ++ packets ∧
    ∀ out ∈ packets, out.2.isInterest = false

theorem AsksNothing.of_same (same : after.outbox = before.outbox) : AsksNothing before after :=
  ⟨[], by rw [same, List.append_nil], nofun⟩

theorem asksNothing_answerFromCache (counts : Counters → Counters) (interest : Interest)
    (data : Data) :
    AsksNothing forwarder ((forwarder.count counts).answerFromCache id face interest data) := by
  obtain ⟨packets, sent, handed⟩ :=
    @sent_answerFromCache (forwarder.count counts) id face interest data
  refine ⟨packets, sent, fun out member => ?_⟩
  rcases handed with rfl | ⟨data, rfl⟩
  · cases member
  · cases List.mem_singleton.mp member
    rfl

end Forwarder

namespace Watched

variable {Keeps : Watched → Prop} {watched : Watched} {id : PitId} {face : FaceId}
  {interest : Interest}

/-- What holds of a watched forwarder as long as the pipeline of outgoing Interests is called
for nothing but what may be forwarded. -/
structure Stable (Keeps : Watched → Prop) : Prop where
  apply : ∀ (watched : Watched) (change : Forwarder → Forwarder),
    watched.forwarder.AsksNothing (change watched.forwarder) → Keeps watched →
      Keeps (watched.apply change)
  send : ∀ (watched : Watched) (id : PitId) (face : FaceId) (hint : Option String),
    watched.forwarder.canForward id face = true → Keeps watched →
      Keeps (watched.sendInterest id face hint false)

theorem Stable.flood (stable : Stable Keeps) (keeps : Keeps watched) (hops : List NextHop) :
    Keeps (watched.flood id hops) := by
  unfold Watched.flood
  -- Each hop is tried in the state that the hops before it have left.
  induction hops generalizing watched with
  | nil => exact keeps
  | cons first rest ih =>
    rw [List.foldl_cons]
    split
    · rename_i usable
      exact ih (stable.send watched id first.face first.targetHint usable keeps)
    · exact ih keeps

theorem Stable.afterReceiveInterest (stable : Stable Keeps) (keeps : Keeps watched)
    (strategy : Strategy) (route : FibEntry) :
    Keeps (Watched.afterReceiveInterest strategy watched route id) := by
  have rejects {watched : Watched} (keeps : Keeps watched) : Keeps (watched.apply (·.reject id)) :=
    stable.apply watched _ (.of_same Forwarder.outbox_reject) keeps
  cases strategy with
  | multicast =>
    have flooded : Keeps (watched.flood id route.nextHops) := stable.flood keeps route.nextHops
    simp only [Watched.afterReceiveInterest]
    split
    · exact flooded
    · exact rejects flooded
  | bestRoute penalty =>
    simp only [Watched.afterReceiveInterest]
    split
    · exact keeps
    · split
      · rename_i hop chosen
        have usable := List.find?_some chosen
        exact stable.send watched id hop.face hop.targetHint usable keeps
      · exact rejects keeps

theorem Stable.askOnward (stable : Stable Keeps) (keeps : Keeps watched) :
    Keeps (watched.askOnward id face interest) := by
  have waits : Keeps (watched.apply fun forwarder =>
      (forwarder.addInRecord id face interest).setUnsatisfyTimer id) :=
    stable.apply watched _ (.of_same (Forwarder.outbox_addInRecord face interest)) keeps
  exact stable.afterReceiveInterest waits _ _

theorem Stable.handleRequest (stable : Stable Keeps) (keeps : Keeps watched) :
    Keeps (watched.handleRequest face interest) := by
  have reopened : Keeps (watched.apply (·.reopen interest.name)) :=
    stable.apply watched _ (.of_same (Forwarder.outbox_reopen interest.name)) keeps
  unfold Watched.handleRequest
  dsimp only
  split
  · exact stable.askOnward reopened
  · split
    · exact stable.apply _ _ (Forwarder.asksNothing_answerFromCache _ _ _) reopened
    · exact stable.askOnward (stable.apply _ _ (.of_same rfl) reopened)

theorem Stable.receiveInterest (stable : Stable Keeps) (keeps : Keeps watched) :
    Keeps (watched.receiveInterest face interest) := by
  unfold Watched.receiveInterest
  split
  · exact stable.handleRequest (stable.apply watched _ (.of_same rfl) keeps)
  · rename_i other
    refine stable.apply watched _ (.of_same ?_) keeps
    rcases watched.forwarder.receiveInterest_cases face interest with
      ⟨change, same⟩ | ⟨kept, judged | judged⟩
    · rw [same]
      rfl
    · rw [Forwarder.receiveInterest_duplicate judged, Forwarder.outbox_joinDuplicate]
      rfl
    · exact absurd judged (other kept)

/-- What may be forwarded is called for in order. -/
theorem stable_inOrder : Stable fun watched => ∀ call ∈ watched.calls, call.InOrder where
  apply _ _ _ inOrder := inOrder
  send watched id face hint usable inOrder call member := by
    rcases List.mem_append.mp member with earlier | last
    · exact inOrder call earlier
    · cases List.mem_singleton.mp last
      obtain ⟨entry, found, record, listed, _⟩ := Forwarder.awaited_of_canForward usable
      exact ⟨entry, found, List.ne_nil_of_mem listed,
        ((Forwarder.canForward_iff found).mp usable).inScope⟩

/-- The Interests that were handed out since the watch began were so in the calls. -/
def Tells (first : Forwarder) (watched : Watched) : Prop :=
  ∃ packets, watched.forwarder.outbox.sent = first.outbox.sent ++ packets ∧
    packets.filter (·.2.isInterest) = watched.calls.flatMap OutgoingCall.handed

theorem stable_tells (first : Forwarder) : Stable (Tells first) where
  apply watched change := by
    rintro ⟨data, handed, only⟩ ⟨packets, sent, told⟩
    have none : data.filter (·.2.isInterest) = [] :=
      List.filter_eq_nil_iff.mpr fun out member => by simp [only out member]
    refine ⟨packets ++ data, ?_, ?_⟩
    · show (change watched.forwarder).outbox.sent = _
      rw [handed, sent, List.append_assoc]
    · rw [List.filter_append, none, List.append_nil]
      exact told
  send watched id face hint _ := by
    rintro ⟨packets, sent, told⟩
    let call : OutgoingCall := ⟨watched.forwarder, id, face, hint, false⟩
    obtain ⟨handed, only⟩ := call.sent_handed
    refine ⟨packets ++ call.handed, ?_, ?_⟩
    · show (watched.forwarder.sendInterest id face hint false).outbox.sent = _
      rw [handed, sent, List.append_assoc]
    · rw [List.filter_append, only, told]
      show _ = (watched.calls ++ [call]).flatMap OutgoingCall.handed
      rw [List.flatMap_append, List.flatMap_singleton]

end Watched

namespace Forwarder

variable {forwarder start : Forwarder} {action : Action} {history : List Action}

/-- The calls of the outgoing Interest pipeline in an action. -/
def callsOf (forwarder : Forwarder) (action : Action) : List OutgoingCall :=
  (Watched.act ⟨forwarder, []⟩ action).calls

/-- The calls of the outgoing Interest pipeline in a run, one after the other. -/
def callsIn (forwarder : Forwarder) : List Action → List OutgoingCall
  | [] => []
  | action :: rest => forwarder.callsOf action ++ (forwarder.act action).callsIn rest

/-- The Interests that a run hands to faces. -/
def interestsIn (forwarder : Forwarder) : List Action → List (FaceId × Packet)
  | [] => []
  | action :: rest =>
    (forwarder.sends action).filter (·.2.isInterest) ++ (forwarder.act action).interestsIn rest

/-- No Interest is handed out but in a call that is seen. -/
theorem interests_of_calls (forwarder : Forwarder) (action : Action) :
    (forwarder.sends action).filter (·.2.isInterest) =
      (forwarder.callsOf action).flatMap OutgoingCall.handed := by
  by_cases sender : Sender action
  · cases sender with
    | receives source interest =>
      have begins : Watched.Tells forwarder ⟨forwarder, []⟩ := ⟨[], (List.append_nil _).symm, rfl⟩
      have ends : Watched.Tells forwarder
          (Watched.act ⟨forwarder, []⟩ (.receiveInterest source interest)) :=
        (Watched.stable_tells forwarder).receiveInterest begins
      obtain ⟨packets, sent, told⟩ := ends
      rw [Watched.forwarder_act] at sent
      rw [HandsOut.sends_eq (.receivesInterest source interest) sent]
      exact told
    | sends id face hint newNonce =>
      let call : OutgoingCall := ⟨forwarder, id, face, hint, newNonce⟩
      show call.handed.filter (·.2.isInterest) = [call].flatMap OutgoingCall.handed
      rw [call.sent_handed.2, List.flatMap_singleton]
  · have nothing : forwarder.callsOf action = [] := by
      cases action with
      | receiveInterest source interest => exact absurd (.receives source interest) sender
      | sendInterest id face hint newNonce => exact absurd (.sends id face hint newNonce) sender
      | _ => rfl
    rw [nothing, List.flatMap_nil, List.filter_eq_nil_iff]
    rintro ⟨face, packet⟩ member isInterest
    cases packet with
    | interest request => exact sender (Sender.of_sent member)
    | data data => cases isInterest

theorem interests_in_calls (start : Forwarder) (history : List Action) :
    start.interestsIn history = (start.callsIn history).flatMap OutgoingCall.handed := by
  induction history generalizing start with
  | nil => rfl
  | cons action rest ih =>
    rw [interestsIn, callsIn, List.flatMap_append, interests_of_calls, ih]

theorem inOrder_callsOf (leaves : action.bypassesStrategies = false) :
    ∀ call ∈ forwarder.callsOf action, call.InOrder := by
  cases action with
  | receiveInterest source interest => exact Watched.stable_inOrder.receiveInterest nofun
  | sendInterest id face hint newNonce => cases leaves
  | _ => nofun

theorem violations_act (leaves : action.bypassesStrategies = false) :
    (forwarder.act action).counters.strategyViolations = forwarder.counters.strategyViolations := by
  have only : [Counter.strategyViolations] ⊆ Counter.faults := by decide
  have faultless : Faultless [.strategyViolations] forwarder action := by
    refine ⟨fun listed => by simp at listed, fun _ id same => ?_⟩
    rw [same] at leaves
    cases leaves
  exact (grows_act only faultless).same .strategyViolations List.mem_cons_self

/-- As long as the host leaves it to the strategies what is sent and what is given up, they
never give up what awaits an answer, and each call of the outgoing Interest pipeline finds its
entry, a downstream that waits for it and no scope in the way. All Interests go out in these
calls. -/
theorem strategies_keep_the_contract
    (leaves : ∀ action ∈ history, action.bypassesStrategies = false) :
    (start.run history).counters.strategyViolations = start.counters.strategyViolations ∧
      (∀ call ∈ start.callsIn history, call.InOrder) ∧
      start.interestsIn history = (start.callsIn history).flatMap OutgoingCall.handed := by
  refine ⟨?_, ?_, interests_in_calls start history⟩
  · induction history generalizing start with
    | nil => rfl
    | cons action rest ih =>
      obtain ⟨leaves, leaves'⟩ := List.forall_mem_cons.mp leaves
      exact (@ih (start.act action) leaves').trans (violations_act leaves)
  · induction history generalizing start with
    | nil => nofun
    | cons action rest ih =>
      obtain ⟨leaves, leaves'⟩ := List.forall_mem_cons.mp leaves
      exact List.forall_mem_append.mpr ⟨inOrder_callsOf leaves, ih leaves'⟩

/-- Another strategy takes over while an Interest waits, and then another downstream asks. -/
def strategyTakesOver : List Action :=
  oneWaits ++ [
    .changeStrategies fun choice => (choice.insert ⟨[[97]]⟩ "best-route").toOption.getD choice,
    .addFace { isLocal := false },
    .changeRoutes (·.addNextHop ⟨[[97]]⟩ { face := ⟨258⟩, cost := 2 }),
    .receiveInterest ⟨256⟩ { name := ⟨[[97]]⟩, nonce := 6 },
    .receiveInterest ⟨256⟩ { name := ⟨[[97], [98]]⟩, nonce := 7 }]

theorem strategies_keep_the_contract_when_one_takes_over :
    (∀ action ∈ strategyTakesOver, action.bypassesStrategies = false) ∧
      (usual.callsIn strategyTakesOver).map (fun call => (call.id, call.face)) =
        [(⟨1, ⟨[[97]]⟩⟩, ⟨257⟩), (⟨2, ⟨[[97], [98]]⟩⟩, ⟨257⟩)] ∧
      (usual.run strategyTakesOver).counters.strategyViolations = 0 ∧
      ∀ call ∈ usual.callsIn strategyTakesOver, call.InOrder := by
  have leaves : ∀ action ∈ strategyTakesOver, action.bypassesStrategies = false := by
    simp [strategyTakesOver, oneWaits, Action.bypassesStrategies]
  obtain ⟨same, inOrder, _⟩ := @strategies_keep_the_contract usual strategyTakesOver leaves
  exact ⟨leaves, by decide +kernel, same, inOrder⟩

end Forwarder

end NamedData
