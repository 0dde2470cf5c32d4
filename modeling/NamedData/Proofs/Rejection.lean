import NamedData.Proofs.Aggregation
import NamedData.Proofs.Footprint
import NamedData.Proofs.Forwarding

namespace NamedData

/-- Before the end of time, only a wait of no length is over at once. -/
theorem Duration.eq_zero_of_add_le {now later lifetime : Duration} (room : now < later)
    (past : now + lifetime ≤ now) : lifetime = Duration.zero := by
  have fits := later.within
  rw [Duration.lt_def] at room
  rw [Duration.le_def, Duration.nanos_add, Duration.longest] at past
  have none : lifetime.nanos = 0 := by omega
  exact Duration.ext none

namespace Forwarder

variable {forwarder before : Forwarder} {id : PitId} {records : List InRecord} {face : FaceId}

theorem speaksBefore_of_ne {a b : InRecord} (different : a.face ≠ face) :
    speaksBefore face a b = true ↔ b.face = face ∨ b.renewed < a.renewed := by
  by_cases mine : b.face = face <;> simp [speaksBefore, different, mine]

theorem later_of_speaksBefore {a b : InRecord} (speaks : speaksBefore face a b = true)
    (different : b.face ≠ face) : a.face ≠ face ∧ b.renewed < a.renewed := by
  by_cases mine : a.face = face
  · simp [speaksBefore, different, mine] at speaks
  · exact ⟨mine, ((speaksBefore_of_ne mine).mp speaks).resolve_left different⟩

theorem exists_speaker? {record : InRecord} (member : record ∈ records) :
    ∃ picked, speaker? face records = some picked := by
  cases records with
  | nil => cases member
  | cons first rest =>
    rw [speaker?]
    split
    · exact ⟨_, rfl⟩
    · split <;> exact ⟨_, rfl⟩

/-- Of the downstreams other than the out-face, the one that speaks was heard last. -/
theorem speaker?_latest {picked other : InRecord} (spoken : speaker? face records = some picked)
    (member : other ∈ records) (different : other.face ≠ face) :
    picked.face ≠ face ∧ other.renewed ≤ picked.renewed := by
  induction records generalizing picked with
  | nil => cases member
  | cons first rest ih =>
    rw [speaker?] at spoken
    split at spoken
    · rename_i alone
      cases spoken
      rcases List.mem_cons.mp member with rfl | later
      · exact ⟨different, Nat.le_refl _⟩
      · obtain ⟨last, spoken⟩ := @exists_speaker? rest face other later
        cases alone.symm.trans spoken
    · rename_i last later
      split at spoken
      · rename_i speaks
        cases spoken
        rcases List.mem_cons.mp member with rfl | member
        · exact ⟨different, Nat.le_refl _⟩
        · obtain ⟨apart, earlier⟩ := ih later member
          obtain ⟨apart', latest⟩ := later_of_speaksBefore speaks apart
          exact ⟨apart', Nat.le_trans earlier (Nat.le_of_lt latest)⟩
      · rename_i silent
        cases spoken
        rcases List.mem_cons.mp member with rfl | member
        · obtain ⟨apart, latest⟩ := not_or.mp (mt (speaksBefore_of_ne different).mpr silent)
          exact ⟨apart, Nat.not_lt.mp latest⟩
        · exact ih later member

theorem hasUnexpiredOutRecords_iff : forwarder.hasUnexpiredOutRecords id = true ↔
    ∃ entry, forwarder.pit.get? id = some entry ∧
      ∃ record ∈ entry.outRecords, forwarder.now < record.expiry := by
  simp [hasUnexpiredOutRecords, PitEntry.hasUnexpiredOutRecords, Option.any_eq_true]

/-- A face that an Interest of these downstreams may be sent to, as long as no answer
is awaited there. -/
structure Usable (forwarder : Forwarder) (id : PitId) (records : List InRecord) (face : FaceId) :
    Prop where
  reachable : forwarder.isReachable face = true
  inScope : forwarder.violatesScope { id, name := id.name, inRecords := records } face = false
  awaited : ∃ record ∈ records, record.face ≠ face ∧ forwarder.now < record.expiry

theorem Usable.inScope_of_get? (usable : before.Usable id records face)
    (upkept : Upkept id records before forwarder) {entry : PitEntry}
    (found : forwarder.pit.get? id = some entry) : forwarder.violatesScope entry face = false := by
  rw [← usable.inScope]
  exact violatesScope_congr upkept.change.faces (upkept.matched.filed.named found)
    (upkept.inRecords found) face

theorem Usable.canForward (usable : before.Usable id records face)
    (upkept : Upkept id records before forwarder)
    (idle : forwarder.hasUnexpiredOutRecords id = false) : forwarder.canForward id face = true := by
  obtain ⟨entry, found, same, _⟩ := upkept.entry
  obtain ⟨record, member, different, waits⟩ := usable.awaited
  have asked (out : OutRecord) (listed : out ∈ entry.outRecords) : out.expiry ≤ forwarder.now := by
    by_contra awaits
    rw [hasUnexpiredOutRecords_iff.mpr ⟨entry, found, out, listed, Nat.not_le.mp awaits⟩] at idle
    cases idle
  rw [← same] at member
  rw [← upkept.change.now] at waits
  unfold Forwarder.canForward
  rw [found]
  refine Bool.and_eq_true_iff.mpr ⟨Bool.and_eq_true_iff.mpr ⟨?_, ?_⟩, ?_⟩
  · rw [Bool.not_eq_true', List.any_eq_false]
    intro out listed
    have expired : ¬ forwarder.now < out.expiry := Nat.not_lt.mpr (asked out listed)
    simp [expired]
  · exact List.any_eq_true.mpr ⟨record, member, by simp [different, waits]⟩
  · rw [usable.inScope_of_get? upkept found]
    rfl

/-- The Interest that would go to a face gets nowhere: it has no hop left and the face
is not local, or its time is up at once. -/
structure Wasted (forwarder : Forwarder) (records : List InRecord) (face : FaceId)
    (picked : InRecord) : Prop where
  spoken : speaker? face records = some picked
  vain : picked.interest.hopLimit = some 0 ∧ forwarder.faces.isLocal face = false ∨
    forwarder.lifetimeOf picked.interest = Duration.zero

/-- An answer that is awaited stays awaited when one more face is asked. -/
theorem awaits_sendInterest (usable : forwarder.canForward id face = true)
    (awaits : forwarder.hasUnexpiredOutRecords id = true) (hint : Option String) :
    (forwarder.sendInterest id face hint false).hasUnexpiredOutRecords id = true := by
  obtain ⟨entry, found, record, member, unexpired⟩ := hasUnexpiredOutRecords_iff.mp awaits
  have now := (forwarder.local_sendInterest id face hint false).now
  rw [hasUnexpiredOutRecords_iff, now]
  rcases entry_sendInterest found face hint false with same | ⟨nonce, lifetime, _, added⟩
  · exact ⟨entry, same, record, member, unexpired⟩
  · refine ⟨_, added, record, PitEntry.mem_putRecord_of_ne member fun same => ?_, unexpired⟩
    exact Nat.not_le.mpr unexpired (outRecords_le_of_canForward usable found member same)

theorem awaits_flood (hops : List NextHop) (awaits : forwarder.hasUnexpiredOutRecords id = true) :
    (Strategy.flood forwarder id hops).hasUnexpiredOutRecords id = true := by
  induction hops generalizing forwarder with
  | nil => exact awaits
  | cons hop rest ih =>
    refine ih ?_
    dsimp only
    split
    · rename_i usable
      exact awaits_sendInterest usable awaits hop.targetHint
    · exact awaits

/-- What nothing forbids is sent. -/
theorem sendInterest_eq_emitInterest {entry : PitEntry} {picked : InRecord}
    (found : forwarder.pit.get? id = some entry) (reachable : forwarder.isReachable face = true)
    (inScope : forwarder.violatesScope entry face = false)
    (spoken : speaker? face entry.inRecords = some picked)
    (unspent : ¬ (picked.interest.hopLimit = some 0 ∧ forwarder.faces.isLocal face = false))
    (hint : Option String) (newNonce : Bool) : forwarder.sendInterest id face hint newNonce =
      forwarder.emitInterest id face picked.interest hint newNonce := by
  simp only [sendInterest, found, reachable, inScope, spoken, Bool.not_true, Bool.false_eq_true,
    if_false]
  rw [if_neg]
  simpa using unspent

/-- A face that owes no answer after it was asked got no Interest, or one whose time
was up at once. -/
theorem wasted_of_idle (usable : before.Usable id records face)
    (upkept : Upkept id records before forwarder) {hint : Option String}
    (idle : (forwarder.sendInterest id face hint false).hasUnexpiredOutRecords id = false) :
    ∃ picked, before.Wasted records face picked := by
  obtain ⟨entry, found, same, _⟩ := upkept.entry
  obtain ⟨record, member, _, waits⟩ := usable.awaited
  obtain ⟨picked, spoken⟩ := @exists_speaker? records face record member
  have change := upkept.change
  refine ⟨picked, spoken, ?_⟩
  by_cases spent : picked.interest.hopLimit = some 0 ∧ before.faces.isLocal face = false
  · exact Or.inl spent
  · refine Or.inr (Duration.eq_zero_of_add_le waits ?_)
    have reachable : forwarder.isReachable face = true := by
      rw [isReachable, change.faces]
      exact usable.reachable
    have inScope := usable.inScope_of_get? upkept found
    rw [← change.faces] at spent
    rw [← same] at spoken
    rw [sendInterest_eq_emitInterest found reachable inScope spoken spent] at idle
    have asked := get?_emitInterest found face picked.interest hint false
    have lifetime : forwarder.lifetimeOf picked.interest = before.lifetimeOf picked.interest := by
      rw [lifetimeOf, lifetimeOf, change.settings]
    rw [lifetime, change.now] at asked
    by_contra awaits
    refine Bool.false_ne_true (idle.symm.trans (hasUnexpiredOutRecords_iff.mpr
      ⟨_, asked, _, PitEntry.self_mem_putRecord _ _ _, ?_⟩))
    rw [emitInterest_eq]
    show forwarder.now < _
    rw [change.now]
    exact Nat.not_le.mp awaits

theorem idle_of_flood {hops : List NextHop}
    (idle : (Strategy.flood forwarder id hops).hasUnexpiredOutRecords id = false) :
    forwarder.hasUnexpiredOutRecords id = false := by
  cases awaits : forwarder.hasUnexpiredOutRecords id with
  | false => rfl
  | true => exact absurd (awaits_flood hops awaits) (Bool.eq_false_iff.mp idle)

/-- An entry that was flooded and awaits no answer had no use for any next hop. -/
theorem wasted_of_flood {hops : List NextHop} (upkept : Upkept id records before forwarder)
    (idle : (Strategy.flood forwarder id hops).hasUnexpiredOutRecords id = false) {hop : NextHop}
    (member : hop ∈ hops) (usable : before.Usable id records hop.face) :
    ∃ picked, before.Wasted records hop.face picked := by
  induction hops generalizing forwarder with
  | nil => cases member
  | cons first rest ih =>
    have begins := idle_of_flood idle
    rw [Strategy.flood, List.foldl_cons, ← Strategy.flood] at idle
    rcases List.mem_cons.mp member with rfl | later
    · rw [if_pos (usable.canForward upkept begins)] at idle
      exact wasted_of_idle usable upkept (idle_of_flood idle)
    · split at idle
      · exact ih (upkept.sendInterest first.face first.targetHint false) idle later
      · exact ih upkept idle later

/-- No send is a rejection. -/
theorem rejectedInterests_sendInterest (hint : Option String) (newNonce : Bool) :
    (forwarder.sendInterest id face hint newNonce).counters.rejectedInterests =
      forwarder.counters.rejectedInterests := by
  unfold sendInterest
  split
  · rfl
  · split
    · rfl
    · split
      · rfl
      · split
        · rfl
        · split
          · rfl
          · rw [emitInterest_eq]

theorem rejectedInterests_flood (hops : List NextHop) :
    (Strategy.flood forwarder id hops).counters.rejectedInterests =
      forwarder.counters.rejectedInterests := by
  induction hops generalizing forwarder with
  | nil => rfl
  | cons hop rest ih =>
    rw [Strategy.flood, List.foldl_cons, ← Strategy.flood, ih]
    split
    · exact rejectedInterests_sendInterest hop.targetHint false
    · rfl

/-- A strategy that rejects an entry had no use for any next hop, and best-route then
found none that it might ask. -/
theorem wasted_of_rejected (upkept : Upkept id records before forwarder) {strategy : Strategy}
    {route : FibEntry}
    (rejected : (strategy.afterReceiveInterest forwarder route id).counters.rejectedInterests ≠
      forwarder.counters.rejectedInterests) {hop : NextHop} (member : hop ∈ route.nextHops)
    (usable : before.Usable id records hop.face) :
    strategy = .multicast ∧ ∃ picked, before.Wasted records hop.face picked := by
  cases strategy with
  | multicast =>
    simp only [Strategy.afterReceiveInterest] at rejected
    split at rejected
    · exact absurd (rejectedInterests_flood _) rejected
    · rename_i idle
      exact ⟨rfl, wasted_of_flood upkept (Bool.not_eq_true _ ▸ idle) member usable⟩
  | bestRoute penalty =>
    simp only [Strategy.afterReceiveInterest] at rejected
    split at rejected
    · exact absurd rfl rejected
    · rename_i idle
      split at rejected
      · exact absurd (rejectedInterests_sendInterest _ _) rejected
      · rename_i unasked
        have allowed := usable.canForward upkept (Bool.not_eq_true _ ▸ idle)
        exact absurd allowed (List.find?_eq_none.mp unasked hop member)

/-- Routes and strategies are the same. -/
structure SameChoice (before after : Forwarder) : Prop where
  fib : after.fib = before.fib
  strategies : after.strategies = before.strategies

theorem SameChoice.afterReceiveInterest (strategy : Strategy) (route : FibEntry) (id : PitId) :
    SameChoice forwarder (strategy.afterReceiveInterest forwarder route id) := by
  obtain ⟨_, _, _, _, _, same⟩ := forwarder.confined_afterReceiveInterest strategy route id
  rw [same]
  exact ⟨rfl, rfl⟩

variable {source : FaceId} {interest : Interest}

/-- An entry was given up. It is in order, and no next hop was of use to it. Where
one might have been asked, it is multicast that gave up. -/
structure GivenUp (id : PitId) (name : Name) (records : List InRecord)
    (before after : Forwarder) : Prop where
  upkept : Upkept id records before after
  choice : SameChoice before after
  wasted : ∀ {hop : NextHop}, hop ∈ (before.fib.longestPrefixMatch name).nextHops →
    before.Usable id records hop.face →
    before.strategies.effective name = .multicast ∧ ∃ picked, before.Wasted records hop.face picked

/-- A change of the counters before it does not matter. -/
theorem GivenUp.since {name : Name} {after : Forwarder} {change : Counters → Counters}
    (givenUp : GivenUp id name records (before.count change) after) :
    GivenUp id name records before after := by
  obtain ⟨upkept, choice, wasted⟩ := givenUp
  refine ⟨⟨(local_count id change).trans upkept.change, upkept.matched, upkept.entry⟩,
    ⟨choice.fib, choice.strategies⟩, fun member usable => ?_⟩
  obtain ⟨multicast, picked, spoken, vain⟩ :=
    wasted member ⟨usable.reachable, usable.inScope, usable.awaited⟩
  exact ⟨multicast, picked, spoken, vain⟩

theorem givenUp_askOnward
    (upkept : Upkept id records before
      ((forwarder.addInRecord id source interest).setUnsatisfyTimer id))
    (choice : SameChoice before forwarder)
    (rejected : (forwarder.askOnward id source interest).counters.rejectedInterests ≠
      forwarder.counters.rejectedInterests) :
    GivenUp id interest.name records before (forwarder.askOnward id source interest) := by
  obtain ⟨waiting, isWaiting⟩ : ∃ waiting, waiting =
    (forwarder.addInRecord id source interest).setUnsatisfyTimer id := ⟨_, rfl⟩
  rw [← isWaiting] at upkept
  have begins : SameChoice before waiting ∧
      waiting.counters.rejectedInterests = forwarder.counters.rejectedInterests := by
    obtain ⟨_, _, armed⟩ := (forwarder.addInRecord id source interest).setUnsatisfyTimer_frame id
    rw [isWaiting, armed]
    exact ⟨⟨choice.fib, choice.strategies⟩, rfl⟩
  obtain ⟨choice', unrejected⟩ := begins
  have decided : forwarder.askOnward id source interest =
      (before.strategies.effective interest.name).afterReceiveInterest waiting
        (before.fib.longestPrefixMatch interest.name) id := by
    rw [← choice'.fib, ← choice'.strategies, isWaiting]
    rfl
  rw [decided, ← unrejected] at rejected
  rw [decided]
  have later := @SameChoice.afterReceiveInterest waiting (before.strategies.effective interest.name)
    (before.fib.longestPrefixMatch interest.name) id
  exact ⟨upkept.afterReceiveInterest _ _,
    ⟨later.fib.trans choice'.fib, later.strategies.trans choice'.strategies⟩,
    fun member usable => wasted_of_rejected upkept rejected member usable⟩

theorem rejectedInterests_answerFromCache (data : Data) :
    (forwarder.answerFromCache id source interest data).counters.rejectedInterests =
      forwarder.counters.rejectedInterests := by
  unfold answerFromCache sendData
  dsimp only
  obtain ⟨_, _, lingers⟩ := ((forwarder.addInRecord id source interest).updateEntry id
    (·.clearInRecords)).setStragglerTimer_frame id true data.freshness
  simp only [Strategy.beforeSatisfyInterest, lingers]
  split
  · rfl
  · split <;> rfl

theorem givenUp_handleRequest (matched : Matched forwarder.pit forwarder.timers)
    (recorded : (forwarder.entryFor interest.name).Recorded forwarder.faces)
    (present : forwarder.faces.contains source = true)
    (rejected : (forwarder.handleRequest source interest).counters.rejectedInterests ≠
      forwarder.counters.rejectedInterests) :
    ∃ records, GivenUp (forwarder.pit.insert interest.name).1 interest.name records forwarder
      (forwarder.handleRequest source interest) := by
  obtain ⟨_, _, reopened⟩ := forwarder.reopen_frame interest.name
  have unrejected : (forwarder.reopen interest.name).counters = forwarder.counters := by
    rw [reopened]
  rcases handleRequest_cases matched source interest with ⟨misses, same⟩ | ⟨data, _, same⟩
  · rw [same] at rejected ⊢
    refine ⟨_, givenUp_askOnward (upkept_reopen matched recorded present _) ?_ ?_⟩
    · rw [reopened]
      exact ⟨rfl, rfl⟩
    · rw [← unrejected] at rejected
      exact rejected
  · rw [same, rejectedInterests_answerFromCache] at rejected
    exact absurd (congrArg Counters.rejectedInterests unrejected) rejected

/-- A duplicate and an Interest that is turned away reject nothing. -/
theorem request_of_rejected
    (rejected : (forwarder.receiveInterest source interest).counters.rejectedInterests ≠
      forwarder.counters.rejectedInterests) :
    ∃ kept, forwarder.judge source interest = .request kept := by
  cases judged : forwarder.judge source interest with
  | request kept => exact ⟨kept, rfl⟩
  | duplicate kept =>
    obtain ⟨_, _, armed⟩ := ((forwarder.received.joining kept.name).addInRecord
      (forwarder.received.pit.insert kept.name).1 source kept).setUnsatisfyTimer_frame
        (forwarder.received.pit.insert kept.name).1
    rw [receiveInterest_duplicate judged, joinDuplicate_eq, armed] at rejected
    exact absurd rfl rejected
  | _ =>
    simp only [receiveInterest, judge_count, judged] at rejected
    exact absurd rfl rejected

theorem givenUp_receiveInterest (sound : Sound forwarder)
    (rejected : (forwarder.receiveInterest source interest).counters.rejectedInterests ≠
      forwarder.counters.rejectedInterests) :
    ∃ records, GivenUp (forwarder.pit.insert interest.name).1 interest.name records forwarder
      (forwarder.receiveInterest source interest) := by
  obtain ⟨kept, judged⟩ := request_of_rejected rejected
  obtain ⟨admitted, present⟩ := judge_letIn (Or.inr judged)
  rw [receiveInterest_request judged, admitted] at rejected ⊢
  obtain ⟨records, givenUp⟩ := @givenUp_handleRequest forwarder.received source
    (forwarder.admitted source interest) sound.matched (sound.entryFor interest.name) present rejected
  exact ⟨records, givenUp.since⟩

/-- The Interest of a downstream could be sent to a face: no answer is awaited there,
no scope is crossed, and the Interest has a hop left and lasts for a while. -/
structure CouldSend (forwarder : Forwarder) (entry : PitEntry) (record : InRecord) (face : FaceId) :
    Prop where
  present : forwarder.faces.contains face = true
  other : record.face ≠ face
  idle : ∀ out ∈ entry.outRecords, out.face = face → out.expiry ≤ forwarder.now
  inScope : forwarder.violatesScope entry face = false
  unspent : record.interest.hopLimit = some 0 → forwarder.faces.isLocal face = true
  lasting : Duration.zero < forwarder.lifetimeOf record.interest

instance (entry : PitEntry) (record : InRecord) : Decidable (forwarder.CouldSend entry record face) :=
  decidable_of_iff (forwarder.faces.contains face = true ∧ record.face ≠ face ∧
      (∀ out ∈ entry.outRecords, out.face = face → out.expiry ≤ forwarder.now) ∧
      forwarder.violatesScope entry face = false ∧
      (record.interest.hopLimit = some 0 → forwarder.faces.isLocal face = true) ∧
      Duration.zero < forwarder.lifetimeOf record.interest)
    ⟨fun ⟨present, other, idle, inScope, unspent, lasting⟩ =>
      ⟨present, other, idle, inScope, unspent, lasting⟩,
    fun could => ⟨could.present, could.other, could.idle, could.inScope, could.unspent, could.lasting⟩⟩

/-- A face that it could be sent to was one that might be asked, for as long as the
entry was handled. -/
theorem CouldSend.usable {after : Forwarder} {entry : PitEntry} {record : InRecord}
    (could : after.CouldSend entry record face) (sound : Sound before)
    (upkept : Upkept id records before after) (found : after.pit.get? id = some entry)
    (member : record ∈ entry.inRecords) (waits : after.now < record.expiry) :
    before.Usable id records face := by
  have change := upkept.change
  have same := upkept.inRecords found
  refine ⟨?_, ?_, record, ?_, could.other, ?_⟩
  · have present := could.present
    rw [change.faces] at present
    rw [isReachable, sound.valid present, present]
    rfl
  · rw [← could.inScope]
    refine violatesScope_congr change.faces.symm ?_ same.symm face
    exact (upkept.matched.filed.named found).symm
  · rw [← same]
    exact member
  · rw [← change.now]
    exact waits

/-- Another downstream speaks in place of one, as it was heard no earlier, and its
Interest gets nowhere. -/
structure Overruled (forwarder : Forwarder) (entry : PitEntry) (record : InRecord) (face : FaceId)
    (picked : InRecord) : Prop extends forwarder.Wasted entry.inRecords face picked where
  other : picked.face ≠ record.face
  apart : picked.face ≠ face
  later : record.renewed ≤ picked.renewed

theorem Wasted.overruled {entry : PitEntry} {record picked : InRecord}
    (wasted : forwarder.Wasted entry.inRecords face picked) (neat : entry.Neat)
    (member : record ∈ entry.inRecords) (could : forwarder.CouldSend entry record face) :
    forwarder.Overruled entry record face picked := by
  obtain ⟨apart, later⟩ := speaker?_latest wasted.spoken member could.other
  refine ⟨wasted, fun same => ?_, apart, later⟩
  -- A downstream that speaks for itself is not overruled.
  have mine : picked = record :=
    List.inj_on_of_nodup_map neat.ins (speaker?_mem wasted.spoken) member same
  subst mine
  rcases wasted.vain with ⟨spent, outside⟩ | nothing
  · rw [could.unspent spent] at outside
    cases outside
  · exact absurd (nothing ▸ could.lasting) (Nat.lt_irrefl _)

variable {settings : Settings} {contentStore : ContentStore} {counters : Counters}
  {nonces : NonceSource} {start : Forwarder}

/-- When an Interest makes an entry be given up, no next hop could have had the
Interest of a downstream that waits, except that multicast has the latest one sent,
and that one may get nowhere. -/
theorem rejected_only_when_stuck
    (made : withParts settings contentStore counters nonces = .ok start)
    (reach : Reach start forwarder) {after : Forwarder}
    (handled : forwarder.receiveInterest source interest = after)
    (rejected : after.counters.rejectedInterests ≠ forwarder.counters.rejectedInterests) :
    ∃ id entry, id.name = interest.name ∧ after.pit.get? id = some entry ∧
      ∀ {record : InRecord} {hop : NextHop}, record ∈ entry.inRecords → after.now < record.expiry →
        hop ∈ (after.fib.longestPrefixMatch interest.name).nextHops →
        after.CouldSend entry record hop.face →
        after.strategies.effective interest.name = .multicast ∧
          ∃ picked, after.Overruled entry record hop.face picked := by
  subst handled
  have sound := reach.sound made
  have tidy := (reach.tidy made).act sound.matched.filed (.receiveInterest source interest)
  obtain ⟨records, givenUp⟩ := givenUp_receiveInterest sound rejected
  obtain ⟨entry, found, same, _⟩ := givenUp.upkept.entry
  have change := givenUp.upkept.change
  have neat : entry.Neat := tidy.neat found
  refine ⟨_, entry, sound.matched.filed.insert_name interest.name, found, ?_⟩
  intro record hop member waits listed could
  rw [givenUp.choice.fib] at listed
  obtain ⟨multicast, picked, spoken, vain⟩ := givenUp.wasted listed
    (could.usable sound givenUp.upkept found member waits)
  rw [← same] at spoken
  rw [← change.faces, lifetimeOf, ← change.settings] at vain
  refine ⟨by rw [givenUp.choice.strategies]; exact multicast, picked, ?_⟩
  exact Wasted.overruled ⟨spoken, vain⟩ neat member could

/-- A downstream other than a face still waits, and its Interest could be sent to a
next hop. -/
def Starved (forwarder : Forwarder) (id : PitId) (source : FaceId) : Prop :=
  ∃ entry, forwarder.pit.get? id = some entry ∧
    ∃ record ∈ entry.inRecords, (record.face ≠ source ∧ forwarder.now < record.expiry) ∧
      ∃ hop ∈ (forwarder.fib.longestPrefixMatch id.name).nextHops,
        forwarder.CouldSend entry record hop.face

instance (source : FaceId) : Decidable (forwarder.Starved id source) :=
  decidable_of_iff ((forwarder.pit.get? id).any fun entry => decide (∃ record ∈ entry.inRecords,
      (record.face ≠ source ∧ forwarder.now < record.expiry) ∧
        ∃ hop ∈ (forwarder.fib.longestPrefixMatch id.name).nextHops,
          forwarder.CouldSend entry record hop.face) = true)
    (by simp only [Option.any_eq_true, decide_eq_true_eq, Starved])

/-- One face asks, the next hop goes away, and another takes its place. -/
def hopReplaced : List Action :=
  [.addFace { isLocal := false }, .addFace { isLocal := false }, .addFace { isLocal := false },
    .addFace { isLocal := false }, .changeRoutes (·.addNextHop ⟨[[97]]⟩ { face := ⟨258⟩, cost := 1 }),
    .receiveInterest ⟨256⟩ { name := ⟨[[97]]⟩, nonce := 5 }, .removeFace ⟨258⟩,
    .changeRoutes (·.addNextHop ⟨[[97]]⟩ { face := ⟨259⟩, cost := 1 })]

/-- An Interest on its last hop. -/
def lastHop : Interest := { name := ⟨[[97]]⟩, nonce := 6, hopLimit := some 1 }

theorem rejected_only_when_stuck_on_the_last_hop :
    ((usual.run hopReplaced).receiveInterest ⟨257⟩ lastHop).counters.rejectedInterests ≠
        (usual.run hopReplaced).counters.rejectedInterests ∧
      ∃ entry record hop picked,
        ((usual.run hopReplaced).receiveInterest ⟨257⟩ lastHop).pit.get? ⟨1, ⟨[[97]]⟩⟩ = some entry ∧
        ((usual.run hopReplaced).receiveInterest ⟨257⟩ lastHop).CouldSend entry record hop ∧
        ((usual.run hopReplaced).receiveInterest ⟨257⟩ lastHop).Overruled entry record hop picked := by
  have rejected : ((usual.run hopReplaced).receiveInterest ⟨257⟩ lastHop).counters.rejectedInterests ≠
    (usual.run hopReplaced).counters.rejectedInterests := by decide +kernel
  have starved : ((usual.run hopReplaced).receiveInterest ⟨257⟩ lastHop).Starved
    ⟨1, ⟨[[97]]⟩⟩ ⟨257⟩ := by decide +kernel
  obtain ⟨id, entry, named, found, stuck⟩ :=
    rejected_only_when_stuck ofSettings_usual (Reach.start.run hopReplaced) rfl rejected
  obtain ⟨_, found', record, member, ⟨_, waits⟩, hop, listed, could⟩ := starved
  have filed := ((Sound.run (sound_start ofSettings_usual) hopReplaced).receiveInterest
    ⟨257⟩ lastHop).matched.filed
  have same : id = ⟨1, ⟨[[97]]⟩⟩ := filed.id_eq_of_name found found' named
  subst same
  cases found.symm.trans found'
  obtain ⟨_, picked, overruled⟩ := stuck member waits listed could
  exact ⟨rejected, entry, record, hop.face, picked, found, could, overruled⟩

/-- A downstream can starve: what is left of the hops of another one decides that
nothing is sent, though its own Interest could go on. -/
theorem rejected_though_one_could_be_sent :
    ((usual.run hopReplaced).receiveInterest ⟨257⟩ lastHop).counters.rejectedInterests =
        (usual.run hopReplaced).counters.rejectedInterests + 1 ∧
      ((usual.run hopReplaced).receiveInterest ⟨257⟩ lastHop).Starved ⟨1, ⟨[[97]]⟩⟩ ⟨257⟩ := by
  decide +kernel

end Forwarder

end NamedData
