import NamedData.Proofs.Consultation
import NamedData.Proofs.NextHops

namespace NamedData

/-- An entry stays in order while the next hops are tried. -/
theorem Upkept.flood {id : PitId} {records : List InRecord} {before here : Forwarder}
    (upkept : Upkept id records before here) (hops : List NextHop) :
    Upkept id records before (Strategy.flood here id hops) := by
  induction hops generalizing here with
  | nil => exact upkept
  | cons hop rest ih =>
    refine ih ?_
    dsimp only
    split
    · exact upkept.sendInterest hop.face hop.targetHint false
    · exact upkept

namespace Forwarder

variable {forwarder before here : Forwarder} {entry : PitEntry} {hops : List NextHop}

/-- What goes to a next hop: the Interest of the downstream that speaks to it, with
the hint of the hop. -/
def ForHop (entry : PitEntry) (hop : NextHop) (out : FaceId × Packet) : Prop :=
  ∃ picked, speaker? hop.face entry.inRecords = some picked ∧
    out = (hop.face, .interest { picked.interest with
      incomingFace := none, targetHint := hop.targetHint })

/-- A next hop that an entry may go to gets its Interest, if the way is open. -/
theorem AtWork.sent {faces : List FaceId} (work : AtWork entry faces before here)
    (valid : ∀ {face : FaceId}, before.faces.contains face = true → face.isValid = true)
    {hop : NextHop} (may : before.MayGo entry hop.face) :
    (here.sendInterest entry.id hop.face hop.targetHint false).outbox = here.outbox ∧
        ¬ before.Open entry hop.face ∨
      before.Open entry hop.face ∧ ∃ out, ForHop entry hop out ∧
        (here.sendInterest entry.id hop.face hop.targetHint false).outbox.sent =
          here.outbox.sent ++ [out] := by
  by_cases way : before.Open entry hop.face
  · obtain ⟨_, picked, _, spoken, emitted⟩ := work.sends valid way hop.targetHint
    refine Or.inr ⟨way, _, ⟨picked, spoken, rfl⟩, ?_⟩
    rw [emitted, emitInterest_eq]
    rfl
  · obtain ⟨counts, unsent⟩ := work.sends_not may way hop.targetHint
    exact Or.inl ⟨by rw [unsent]; rfl, way⟩

/-- Once a face was tried, the others are noted as they were. -/
theorem AtWork.tried {face : FaceId} {faces : List FaceId}
    (work : AtWork entry (face :: faces) before here) (other : face ∉ faces)
    (hint : Option String) : AtWork entry faces before (here.sendInterest entry.id face hint false) := by
  refine ⟨work.named, work.upkept.sendInterest face hint false, ?_⟩
  intro out untried
  obtain ⟨kept, found, _⟩ := work.upkept.entry
  have apart : out.face ≠ face := fun same => other (same ▸ untried)
  rw [← work.untried (List.mem_cons_of_mem face untried), outRecordsOf_of_get? found]
  rcases entry_sendInterest found face hint false with same | ⟨nonce, lifetime, _, added⟩
  · rw [outRecordsOf_of_get? same]
  · rw [outRecordsOf_of_get? added]
    refine ⟨fun member => ?_, fun member => PitEntry.mem_putRecord_of_ne member apart⟩
    rcases PitEntry.mem_putRecord member with new | old
    · rw [new] at apart
      exact absurd rfl apart
    · exact old

/-- Every next hop is tried once, and what was sent before does not matter for it. -/
theorem AtWork.flood (work : AtWork entry (hops.map NextHop.face) before here)
    (valid : ∀ {face : FaceId}, before.faces.contains face = true → face.isValid = true)
    (once : (hops.map NextHop.face).Nodup) :
    ∃ packets, (Strategy.flood here entry.id hops).outbox.sent = here.outbox.sent ++ packets ∧
      List.Forall₂ (ForHop entry) (hops.filter fun hop => before.Open entry hop.face) packets := by
  induction hops generalizing here with
  | nil => exact ⟨[], (List.append_nil _).symm, .nil⟩
  | cons hop rest ih =>
    obtain ⟨other, once⟩ := List.nodup_cons.mp once
    rw [Strategy.flood, List.foldl_cons, ← Strategy.flood]
    by_cases may : before.MayGo entry hop.face
    · rw [if_pos ((work.mayGo_iff List.mem_cons_self).mpr may)]
      obtain ⟨packets, sent, listed⟩ := ih (work.tried other hop.targetHint) once
      rcases work.sent valid may with ⟨unsent, shut⟩ | ⟨way, out, mine, first⟩
      · refine ⟨packets, by rw [sent, unsent], ?_⟩
        rw [List.filter_cons_of_neg (by simpa using shut)]
        exact listed
      · refine ⟨out :: packets, by rw [sent, first, List.append_assoc]; rfl, ?_⟩
        rw [List.filter_cons_of_pos (by simpa using way)]
        exact .cons mine listed
    · rw [if_neg (mt (work.mayGo_iff List.mem_cons_self).mp may)]
      obtain ⟨packets, sent, listed⟩ := ih
        ⟨work.named, work.upkept, fun untried => work.untried (List.mem_cons_of_mem _ untried)⟩ once
      refine ⟨packets, sent, ?_⟩
      rw [List.filter_cons_of_neg (by simpa using fun way : before.Open entry hop.face => may way.toMayGo)]
      exact listed

/-- What multicast makes of an entry. It goes to the next hops that are open to it,
once to each and in their order, and it is given up just when no answer is awaited
then. -/
structure Multicasts (entry : PitEntry) (hops : List NextHop) (before after : Forwarder) : Prop where
  sent : ∃ packets, after.outbox.sent = before.outbox.sent ++ packets ∧
    List.Forall₂ (ForHop entry) (hops.filter fun hop => before.Open entry hop.face) packets
  once : (hops.map NextHop.face).Nodup
  rejected : Rejected entry.id before after ↔ after.hasUnexpiredOutRecords entry.id = false
  unrejected : after.hasUnexpiredOutRecords entry.id = true →
    after.counters.rejectedInterests = before.counters.rejectedInterests

theorem Handed.multicasts {waiting : Forwarder} (handed : Handed entry before waiting)
    (valid : ∀ {face : FaceId}, before.faces.contains face = true → face.isValid = true)
    {route : FibEntry} (once : (route.nextHops.map NextHop.face).Nodup) :
    Multicasts entry route.nextHops before
      (Strategy.multicast.afterReceiveInterest waiting route entry.id) := by
  obtain ⟨packets, sent, listed⟩ := (handed.work _).flood valid once
  rw [handed.outbox] at sent
  have unrejected : (Strategy.flood waiting entry.id route.nextHops).counters.rejectedInterests =
      before.counters.rejectedInterests := (rejectedInterests_flood _).trans handed.rejections
  simp only [Strategy.afterReceiveInterest]
  split
  · rename_i awaits
    refine ⟨⟨packets, sent, listed⟩, once, ⟨fun rejected => ?_, fun idle => ?_⟩, fun _ => unrejected⟩
    · exact absurd (unrejected.symm.trans rejected.counted) (Nat.ne_of_lt (Nat.lt_succ_self _))
    · rw [awaits] at idle
      cases idle
  · rename_i idle
    have flooded : Upkept entry.id entry.inRecords before
        (Strategy.flood waiting entry.id route.nextHops) := handed.upkept.flood route.nextHops
    obtain ⟨kept, found, _⟩ := flooded.entry
    obtain ⟨rejected, idle⟩ := rejected_of_idle flooded.matched found (Bool.not_eq_true _ ▸ idle)
    refine ⟨⟨packets, by rw [outbox_reject, sent], listed⟩, once, ⟨fun _ => idle, fun _ => ?_⟩, ?_⟩
    · exact rejected.since unrejected
    · intro awaits
      rw [idle] at awaits
      cases awaits

variable {settings : Settings} {contentStore : ContentStore} {counters : Counters}
  {nonces : NonceSource} {start : Forwarder} {source : FaceId} {interest : Interest}

/-- An Interest that comes in where multicast is in charge floods exactly the next
hops that are open to its entry. -/
theorem multicast_floods (made : withParts settings contentStore counters nonces = .ok start)
    (reach : Reach start forwarder) (routes : forwarder.fib.Made)
    (consults : forwarder.Consults source interest)
    (charge : forwarder.strategies.effective interest.name = .multicast) :
    Multicasts (forwarder.joined source interest)
      (forwarder.fib.longestPrefixMatch interest.name).nextHops forwarder
      (forwarder.receiveInterest source interest) := by
  have sound := reach.sound made
  obtain ⟨waiting, handed, decided⟩ := sound.handed consults
  rw [decided, charge]
  exact handed.multicasts sound.valid (routes.distinct.longestPrefixMatch interest.name)

/-- Two faces are next hops for a name that a third will ask for. -/
def twoHops : List Action :=
  [.addFace { isLocal := false }, .addFace { isLocal := false }, .addFace { isLocal := false },
    .changeRoutes (·.addNextHop ⟨[[97]]⟩ { face := ⟨257⟩, cost := 1 }),
    .changeRoutes (·.addNextHop ⟨[[97]]⟩ { face := ⟨258⟩, cost := 2 })]

theorem multicast_floods_two :
    (usual.run twoHops).Consults ⟨256⟩ { name := ⟨[[97]]⟩, nonce := 5 } ∧
      (usual.run twoHops).Open ((usual.run twoHops).joined ⟨256⟩ { name := ⟨[[97]]⟩, nonce := 5 }) ⟨258⟩ ∧
      Multicasts ((usual.run twoHops).joined ⟨256⟩ { name := ⟨[[97]]⟩, nonce := 5 })
        [{ face := ⟨257⟩, cost := 1 }, { face := ⟨258⟩, cost := 2 }] (usual.run twoHops)
        ((usual.run twoHops).receiveInterest ⟨256⟩ { name := ⟨[[97]]⟩, nonce := 5 }) := by
  have consults : (usual.run twoHops).Consults ⟨256⟩ { name := ⟨[[97]]⟩, nonce := 5 } := by
    decide +kernel
  exact ⟨consults, by decide +kernel, multicast_floods ofSettings_usual (Reach.start.run twoHops)
    (.addNextHop _ _ (.addNextHop _ _ .empty)) consults (by decide +kernel)⟩

/-- Best-route leaves an entry waiting for nothing: no answer is awaited, and the first
next hop that the entry may go to gets no Interest, or one whose time is up at once.
Then the hop is no face any more, or what goes there is wasted. -/
structure Limbo (forwarder : Forwarder) (entry : PitEntry) (hops : List NextHop) : Prop where
  idle : ∀ out ∈ entry.outRecords, out.expiry ≤ forwarder.now
  lost : ∃ hop, hops.find? (fun hop => forwarder.MayGo entry hop.face) = some hop ∧
    (forwarder.faces.contains hop.face = false ∨
      ∃ picked, forwarder.Wasted entry.inRecords hop.face picked)

/-- What best-route makes of an entry. It sends at most one Interest, to a next hop.
Then an answer is awaited or the entry was given up, unless it is left in limbo. -/
structure RoutesBest (entry : PitEntry) (hops : List NextHop) (before after : Forwarder) : Prop where
  sent : ∃ packets, after.outbox.sent = before.outbox.sent ++ packets ∧ packets.length ≤ 1 ∧
    ∀ out ∈ packets, ∃ hop ∈ hops, ForHop entry hop out
  settled : (after.hasUnexpiredOutRecords entry.id = true ∨ Rejected entry.id before after) ↔
    ¬ before.Limbo entry hops

theorem idle_iff (found : here.pit.get? entry.id = some entry) :
    here.hasUnexpiredOutRecords entry.id = false ↔
      ∀ out ∈ entry.outRecords, out.expiry ≤ here.now := by
  rw [← Bool.not_eq_true, hasUnexpiredOutRecords_iff]
  constructor
  · intro idle out listed
    exact Nat.not_lt.mp fun awaits => idle ⟨entry, found, out, listed, awaits⟩
  · rintro idle ⟨kept, found', out, listed, awaits⟩
    cases found.symm.trans found'
    exact Nat.not_le.mpr awaits (idle out listed)

/-- An Interest whose time is up at once leaves nothing to wait for. -/
theorem idle_emitInterest {id : PitId} {face : FaceId} (idle : here.hasUnexpiredOutRecords id = false)
    {kept : PitEntry} (found : here.pit.get? id = some kept) (interest : Interest)
    (brief : here.lifetimeOf interest = Duration.zero) (hint : Option String) (newNonce : Bool) :
    (here.emitInterest id face interest hint newNonce).hasUnexpiredOutRecords id = false := by
  have asked := get?_emitInterest found face interest hint newNonce
  have now : (here.emitInterest id face interest hint newNonce).now = here.now := by
    rw [emitInterest_eq]
    rfl
  rw [← Bool.not_eq_true, hasUnexpiredOutRecords_iff, now]
  rintro ⟨after, found', out, listed, awaits⟩
  cases asked.symm.trans found'
  rcases PitEntry.mem_putRecord listed with new | old
  · rw [new] at awaits
    have atOnce : (here.now + here.lifetimeOf interest).nanos = here.now.nanos := by
      rw [brief, Duration.nanos_add]
      exact Nat.min_eq_left here.now.within
    exact Nat.lt_irrefl _ (Nat.lt_of_lt_of_eq awaits atOnce)
  · refine Bool.false_ne_true (idle.symm.trans ?_)
    exact hasUnexpiredOutRecords_iff.mpr ⟨kept, found, out, old, awaits⟩

variable {waiting : Forwarder}

theorem Handed.idle_iff (handed : Handed entry before waiting) :
    waiting.hasUnexpiredOutRecords entry.id = false ↔
      ∀ out ∈ entry.outRecords, out.expiry ≤ before.now := by
  obtain ⟨kept, found, _⟩ := handed.upkept.entry
  have same := handed.upkept.matched.filed.own found
  rw [← same] at found ⊢
  rw [Forwarder.idle_iff found, ← outRecordsOf_of_get? found, same, handed.outRecords,
    handed.upkept.change.now]

/-- The hop that is asked is the first that the entry may go to. -/
theorem Handed.find?_eq (handed : Handed entry before waiting) (hops : List NextHop) :
    hops.find? (fun hop => waiting.canForward entry.id hop.face) =
      hops.find? (fun hop => before.MayGo entry hop.face) := by
  congr 1
  funext hop
  rw [Bool.eq_iff_iff, decide_eq_true_iff]
  exact (handed.work [hop.face]).mayGo_iff List.mem_cons_self

/-- An entry in limbo awaits no answer once its hop was asked. -/
theorem Handed.idle_of_lost (handed : Handed entry before waiting)
    (valid : ∀ {face : FaceId}, before.faces.contains face = true → face.isValid = true)
    (idle : waiting.hasUnexpiredOutRecords entry.id = false) {face : FaceId}
    (may : before.MayGo entry face) (lost : before.faces.contains face = false ∨
      ∃ picked, before.Wasted entry.inRecords face picked) (hint : Option String) :
    (waiting.sendInterest entry.id face hint false).hasUnexpiredOutRecords entry.id = false := by
  have work := handed.work [face]
  by_cases way : before.Open entry face
  · obtain ⟨kept, picked, found, spoken, emitted⟩ := work.sends valid way hint
    rcases lost with absent | ⟨picked', spoken', spent | brief⟩
    · rw [way.present] at absent
      cases absent
    · rw [way.unspent picked' spoken' spent.1] at spent
      cases spent.2
    · cases spoken.symm.trans spoken'
      rw [emitted]
      refine idle_emitInterest idle found picked.interest ?_ hint false
      rw [lifetimeOf, handed.upkept.change.settings]
      exact brief
  · obtain ⟨counts, unsent⟩ := work.sends_not may way hint
    rw [unsent]
    exact idle

/-- To try a hop that the entry may go to sends one Interest at most, and to that hop. -/
theorem Handed.sends_one (handed : Handed entry before waiting)
    (valid : ∀ {face : FaceId}, before.faces.contains face = true → face.isValid = true)
    {hop : NextHop} (listed : hop ∈ hops) (may : before.MayGo entry hop.face) :
    ∃ packets, (waiting.sendInterest entry.id hop.face hop.targetHint false).outbox.sent =
        before.outbox.sent ++ packets ∧
      packets.length ≤ 1 ∧ ∀ out ∈ packets, ∃ hop ∈ hops, ForHop entry hop out := by
  rcases (handed.work [hop.face]).sent valid may with ⟨unsent, _⟩ | ⟨_, out, mine, sent⟩
  · refine ⟨[], ?_, Nat.zero_le _, fun _ impossible => by cases impossible⟩
    rw [unsent, handed.outbox, List.append_nil]
  · refine ⟨[out], by rw [sent, handed.outbox], Nat.le_refl _, fun other member => ?_⟩
    rw [List.mem_singleton.mp member]
    exact ⟨hop, listed, mine⟩

/-- When the first hop that the entry may go to was tried, an answer is awaited unless
the entry was left in limbo. -/
theorem Handed.awaits_iff (handed : Handed entry before waiting)
    (valid : ∀ {face : FaceId}, before.faces.contains face = true → face.isValid = true)
    (idle : waiting.hasUnexpiredOutRecords entry.id = false) {hop : NextHop}
    (chosen : hops.find? (fun hop => before.MayGo entry hop.face) = some hop) :
    (waiting.sendInterest entry.id hop.face hop.targetHint false).hasUnexpiredOutRecords entry.id =
      true ↔ ¬ before.Limbo entry hops := by
  have may : before.MayGo entry hop.face := by simpa using List.find?_some chosen
  rw [← Bool.not_eq_false, not_iff_not]
  constructor
  · intro still
    refine ⟨handed.idle_iff.mp idle, hop, chosen, ?_⟩
    by_cases present : before.faces.contains hop.face = true
    · refine Or.inr (wasted_of_idle ⟨?_, ?_, may.awaited⟩ handed.upkept still)
      · rw [isReachable, valid present, present]
        rfl
      · refine Eq.trans (violatesScope_congr ?_ ?_ ?_ hop.face) may.inScope
        exacts [rfl, handed.named.symm, rfl]
    · exact Or.inl (Bool.not_eq_true _ ▸ present)
  · rintro ⟨_, other, chosen', lost⟩
    cases chosen.symm.trans chosen'
    exact handed.idle_of_lost valid idle may lost hop.targetHint

theorem Handed.routesBest (handed : Handed entry before waiting)
    (valid : ∀ {face : FaceId}, before.faces.contains face = true → face.isValid = true)
    (penalty : Cost) (route : FibEntry) :
    RoutesBest entry route.nextHops before
      ((Strategy.bestRoute penalty).afterReceiveInterest waiting route entry.id) := by
  have silent : ∃ packets, before.outbox.sent = before.outbox.sent ++ packets ∧
      packets.length ≤ 1 ∧ ∀ out ∈ packets, ∃ hop ∈ route.nextHops, ForHop entry hop out :=
    ⟨[], (List.append_nil _).symm, Nat.zero_le _, fun _ impossible => by cases impossible⟩
  simp only [Strategy.afterReceiveInterest]
  split
  · rename_i awaits
    refine ⟨by rw [handed.outbox]; exact silent, iff_of_true (Or.inl awaits) fun limbo => ?_⟩
    rw [handed.idle_iff.mpr limbo.idle] at awaits
    cases awaits
  · rename_i idle
    rw [Bool.not_eq_true] at idle
    rw [handed.find?_eq]
    split
    · rename_i hop chosen
      have unrejected : ¬ Rejected entry.id before
          (waiting.sendInterest entry.id hop.face hop.targetHint false) := by
        intro rejected
        have counted := rejected.counted
        rw [rejectedInterests_sendInterest, handed.rejections] at counted
        exact Nat.ne_of_lt (Nat.lt_succ_self _) counted
      refine ⟨handed.sends_one valid (List.mem_of_find?_eq_some chosen)
        (by simpa using List.find?_some chosen), ?_⟩
      rw [or_iff_left unrejected]
      exact handed.awaits_iff valid idle chosen
    · rename_i unasked
      obtain ⟨kept, found, _⟩ := handed.upkept.entry
      obtain ⟨rejected, _⟩ := rejected_of_idle handed.upkept.matched found idle
      refine ⟨by rw [outbox_reject, handed.outbox]; exact silent,
        iff_of_true (Or.inr (rejected.since handed.rejections)) ?_⟩
      rintro ⟨_, hop, chosen, _⟩
      cases unasked.symm.trans chosen

/-- An Interest that comes in where best-route is in charge goes to one next hop at
most. Afterwards an answer is awaited or the entry is given up, but for an entry that
is left in limbo. -/
theorem best_route_settles_unless_in_limbo
    (made : withParts settings contentStore counters nonces = .ok start)
    (reach : Reach start forwarder) (consults : forwarder.Consults source interest) {penalty : Cost}
    (charge : forwarder.strategies.effective interest.name = .bestRoute penalty) :
    RoutesBest (forwarder.joined source interest)
      (forwarder.fib.longestPrefixMatch interest.name).nextHops forwarder
      (forwarder.receiveInterest source interest) := by
  have sound := reach.sound made
  obtain ⟨waiting, handed, decided⟩ := sound.handed consults
  rw [decided, charge]
  exact handed.routesBest sound.valid penalty _

/-- One face is the next hop for a name that another will ask for, and best-route is in
charge. -/
def oneHop : List Action :=
  [.addFace { isLocal := false }, .addFace { isLocal := false },
    .changeRoutes (·.addNextHop ⟨[[97]]⟩ { face := ⟨257⟩, cost := 1 }),
    .changeStrategies fun choice => (choice.insert .root "best-route").toOption.getD choice]

theorem best_route_settles_unless_in_limbo_at_once :
    (usual.run oneHop).Consults ⟨256⟩ { name := ⟨[[97]]⟩, nonce := 5 } ∧
      RoutesBest ((usual.run oneHop).joined ⟨256⟩ { name := ⟨[[97]]⟩, nonce := 5 })
        [{ face := ⟨257⟩, cost := 1 }] (usual.run oneHop)
        ((usual.run oneHop).receiveInterest ⟨256⟩ { name := ⟨[[97]]⟩, nonce := 5 }) := by
  have consults : (usual.run oneHop).Consults ⟨256⟩ { name := ⟨[[97]]⟩, nonce := 5 } := by
    decide +kernel
  have charge : (usual.run oneHop).strategies.effective ⟨[[97]]⟩ = .bestRoute 10 := by decide +kernel
  exact ⟨consults, best_route_settles_unless_in_limbo ofSettings_usual (Reach.start.run oneHop)
    consults charge⟩

/-- An Interest on its last hop gets a next hop that will not be sent anything: no
answer is awaited then, and nothing is given up. -/
theorem best_route_leaves_an_entry_in_limbo :
    (usual.run oneHop).Consults ⟨256⟩ lastHop ∧
      (usual.run oneHop).strategies.effective lastHop.name = .bestRoute 10 ∧
      (((usual.run oneHop).receiveInterest ⟨256⟩ lastHop).pit.get? ⟨1, lastHop.name⟩).isSome = true ∧
      ((usual.run oneHop).receiveInterest ⟨256⟩ lastHop).hasUnexpiredOutRecords
        ⟨1, lastHop.name⟩ = false ∧
      ((usual.run oneHop).receiveInterest ⟨256⟩ lastHop).counters.rejectedInterests =
        (usual.run oneHop).counters.rejectedInterests := by
  decide +kernel

end Forwarder

end NamedData
