import Mathlib.Data.List.Perm.Subperm
import NamedData.Proofs.RunEvaluation
import NamedData.Proofs.RunHistories
import NamedData.Proofs.StopTimes

namespace NamedData

theorem Duration.ofMillis_le {shorter longer : Nat} (le : shorter ≤ longer) :
    ofMillis shorter ≤ ofMillis longer := by
  show min (shorter * 1000000) longest ≤ min (longer * 1000000) longest
  unfold longest
  omega

namespace Consumer

variable {consumer : Consumer} {limit later : Instant} {asked : List (Name × Instant)}
  {answered : List Answer} {lost : List Name}

/-- An answer in time that comes after a limit is to a request that lasts beyond it. -/
theorem Answer.Prompt.after {answer : Answer} {lifetime : Duration} (prompt : answer.Prompt lifetime)
    (late : limit < answer.answered) : limit < answer.asked + lifetime := by
  obtain ⟨passed, timely⟩ := prompt
  have fits := answer.answered.within
  rw [wait, Duration.lt_def, Duration.nanos_sub] at timely
  rw [Duration.le_def] at passed
  rw [Duration.lt_def] at late ⊢
  rw [Duration.nanos_add, Duration.longest]
  rcases timely with before | ⟨_, atOnce⟩
  · omega
  · rw [atOnce] at late fits
    omega

theorem timedOut_expire_of_subset {other : Consumer} (timedOut : other.timedOut = consumer.timedOut)
    (kept : consumer.overdue limit ⊆ other.overdue later) :
    (consumer.expire limit).timedOut ≤ (other.expire later).timedOut := by
  show consumer.timedOut + (consumer.overdue limit).length ≤
    other.timedOut + (other.overdue later).length
  rw [timedOut]
  exact Nat.add_le_add_left (List.subperm_of_subset nodup_overdue kept).length_le _

/-- Who gives up later gives up no less. -/
theorem timedOut_expire_le (sooner : limit ≤ later) :
    (consumer.expire limit).timedOut ≤ (consumer.expire later).timedOut := by
  refine timedOut_expire_of_subset rfl fun name late => ?_
  obtain ⟨time, found, passed⟩ := mem_overdue.mp late
  exact mem_overdue.mpr ⟨time, found, fun waits => passed (Nat.lt_of_le_of_lt sooner waits)⟩

/-- Data takes nothing from what would have been given up, unless it is the answer to it. -/
theorem timedOut_expire_receive (data : Data) (now : Instant)
    (late : ∀ answer ∈ consumer.answers (.receive data now), limit < answer.asked + consumer.lifetime) :
    (consumer.expire limit).timedOut ≤ ((consumer.receive data now).expire limit).timedOut := by
  cases found : consumer.pending[data.name]? with
  | none =>
    simp only [receive, found]
    exact Nat.le_refl _
  | some time =>
    have inTime : limit < time + consumer.lifetime :=
      late ⟨data.name, time, now⟩ (by simp only [answers, found]; exact List.mem_singleton_self _)
    simp only [receive, found]
    refine timedOut_expire_of_subset rfl fun name overdue => ?_
    obtain ⟨since, waits, passed⟩ := mem_overdue.mp overdue
    refine mem_overdue.mpr ⟨since, ?_, passed⟩
    rw [Std.ExtTreeMap.getElem?_erase, if_neg, waits]
    intro same
    rw [← Std.compare_eq_iff_eq.mp same, found] at waits
    cases waits
    exact passed inTime

/-- What would have been given up by a limit is given up now, or can be then. -/
theorem timedOut_expire_expire (now : Instant) :
    (consumer.expire limit).timedOut ≤ ((consumer.expire now).expire limit).timedOut := by
  have split : consumer.overdue limit ⊆ consumer.overdue now ++ (consumer.expire now).overdue limit := by
    intro name overdue
    obtain ⟨since, waits, passed⟩ := mem_overdue.mp overdue
    by_cases lost : name ∈ consumer.overdue now
    · exact List.mem_append_left _ lost
    · refine List.mem_append_right _ (mem_overdue.mpr ⟨since, ?_, passed⟩)
      exact (NameTable.getElem?_eraseAll name).trans ((if_neg lost).trans waits)
  have bound := (List.subperm_of_subset nodup_overdue split).length_le
  rw [List.length_append] at bound
  show consumer.timedOut + (consumer.overdue limit).length ≤
    consumer.timedOut + (consumer.overdue now).length + ((consumer.expire now).overdue limit).length
  omega

/-- A new request is for a name that nothing was asked for so far. -/
theorem timedOut_expire_issue (accounts : consumer.Accounts asked answered lost) (now : Instant)
    (nonce : UInt32) :
    (consumer.expire limit).timedOut ≤ ((consumer.issue now nonce).2.expire limit).timedOut := by
  refine timedOut_expire_of_subset rfl fun name overdue => ?_
  obtain ⟨since, waits, passed⟩ := mem_overdue.mp overdue
  refine mem_overdue.mpr ⟨since, ?_, passed⟩
  show (consumer.pending.insert _ now)[name]? = _
  rw [Std.ExtTreeMap.getElem?_insert, if_neg, waits]
  intro same
  rw [← Std.compare_eq_iff_eq.mp same, accounts.unasked] at waits
  cases waits

/-- What would have been given up by a limit is given up or still to be given up after
a turn, unless the turn brought an answer to it. -/
theorem timedOut_expire_take (accounts : consumer.Accounts asked answered lost) (turn : Turn)
    (late : ∀ answer ∈ consumer.answers turn, limit < answer.asked + consumer.lifetime) :
    (consumer.expire limit).timedOut ≤ ((consumer.take turn).expire limit).timedOut := by
  cases turn with
  | receive data now => exact timedOut_expire_receive data now late
  | expire now => exact timedOut_expire_expire now
  | issue now nonce => exact timedOut_expire_issue accounts now nonce

theorem timedOut_expire_follow (accounts : consumer.Accounts asked answered lost) (turns : List Turn)
    (late : ∀ answer ∈ throughout answers consumer turns, limit < answer.asked + consumer.lifetime) :
    (consumer.expire limit).timedOut ≤ ((consumer.follow turns).expire limit).timedOut := by
  induction turns generalizing consumer asked answered lost with
  | nil => exact Nat.le_refl _
  | cons turn rest ih =>
    have first := timedOut_expire_take accounts turn fun answer counted =>
      late answer (List.mem_append_left _ counted)
    refine Nat.le_trans first (ih (accounts.take turn) fun answer counted => ?_)
    rw [(Simulation.kept_take consumer turn).2.2.2]
    exact late answer (List.mem_append_right _ counted)

/-- What is asked and what is answered stays so. -/
theorem Accounts.counts_le (accounts : consumer.Accounts asked answered lost) (turns : List Turn) :
    consumer.sent ≤ (consumer.follow turns).sent ∧
      consumer.satisfied ≤ (consumer.follow turns).satisfied := by
  have later := accounts.follow turns
  rw [later.sent, later.satisfied, accounts.sent, accounts.satisfied, List.length_append,
    List.length_append]
  exact ⟨Nat.le_add_right _ _, Nat.le_add_right _ _⟩

end Consumer

/-- A node counts no less than another in each of its counters. -/
structure NodeReport.Covers (more less : NodeReport) : Prop where
  node : more.node = less.node
  counters : ∀ counter, less.counters.value counter ≤ more.counters.value counter

structure ConsumerReport.Covers (more less : ConsumerReport) : Prop where
  node : more.node = less.node
  under : more.under = less.under
  sent : less.sent ≤ more.sent
  satisfied : less.satisfied ≤ more.satisfied
  timedOut : less.timedOut ≤ more.timedOut

structure ProducerReport.Covers (more less : ProducerReport) : Prop where
  node : more.node = less.node
  under : more.under = less.under
  served : less.served ≤ more.served

/-- Two reports are about the same nodes and applications, and none of the numbers they
count is less in the one than in the other. -/
structure Report.Covers (more less : Report) : Prop where
  nodes : List.Forall₂ NodeReport.Covers more.nodes less.nodes
  consumers : List.Forall₂ ConsumerReport.Covers more.consumers less.consumers
  producers : List.Forall₂ ProducerReport.Covers more.producers less.producers

/-- Two lists that come from the same one place by place are related when what stands at
each place is. -/
theorem forall₂_of_places {α β γ : Type} {related : β → γ → Prop} {base : List α} {left : List β}
    {right : List γ} {toLeft : Nat → α → β} {toRight : Nat → α → γ}
    (isLeft : ∀ place : Nat, left[place]? = base[place]?.map (toLeft place))
    (isRight : ∀ place : Nat, right[place]? = base[place]?.map (toRight place))
    (each : ∀ (place : Nat) (item : α), base[place]? = some item →
      related (toLeft place item) (toRight place item)) :
    List.Forall₂ related left right := by
  have left' : left = base.mapIdx toLeft := List.ext_getElem? fun place => by
    rw [isLeft, List.getElem?_mapIdx]
  have right' : right = base.mapIdx toRight := List.ext_getElem? fun place => by
    rw [isRight, List.getElem?_mapIdx]
  rw [left', right', List.forall₂_iff_get]
  refine ⟨by rw [List.length_mapIdx, List.length_mapIdx], fun place within _ => ?_⟩
  rw [List.length_mapIdx] at within
  rw [List.get_eq_getElem, List.get_eq_getElem, List.getElem_mapIdx, List.getElem_mapIdx]
  exact each place _ (List.getElem?_eq_getElem within)

namespace Simulation

open Consumer (Answer Turn throughout answers)

variable {simulation final : Simulation} {asker budget : Nat} {first : Consumer} {turns : List Turn}
  {limit : Instant}

/-- A run that ends has every consumer give up what took too long by its end. -/
theorem moves_of_run? (ended : simulation.run? budget = some final) :
    ∃ moves, simulation.moves budget = moves ++ [.giveUp simulation.stop] := by
  induction budget generalizing simulation with
  | zero => cases ended
  | succ budget ih =>
    rw [run?, step?_eq_follow] at ended
    rw [moves]
    cases next : simulation.next? with
    | none => exact ⟨_, rfl⟩
    | some first =>
      rw [next] at ended
      obtain ⟨rest, same⟩ := ih ended
      rw [stop_follow] at same
      exact ⟨_, by dsimp only; rw [same, ← List.append_assoc]⟩

/-- Where a run would be over by a limit, no answer comes any more before the limit
has passed. -/
theorem late_answered (settled : simulation.Settled) (isOver : (simulation.stoppedAt limit).next? = none)
    {consumer : Consumer} (found : simulation.consumers[asker]? = some consumer) {answer : Answer}
    (counted : answer ∈ throughout answers consumer
      (turnsOf asker simulation (simulation.moves budget))) : limit < answer.answered := by
  obtain ⟨undue, deadline⟩ : simulation.timers.popDue? simulation.now = none ∧
    ∀ time, simulation.nextDeadline? = some time → limit < time := next?_eq_none.mp isOver
  cases budget with
  | zero => cases counted
  | succ budget =>
    rw [moves] at counted
    cases next : simulation.next? with
    | none =>
      rw [next, (settled.concludes next asker).2.1] at counted
      cases counted
    | some first =>
      obtain ⟨time, soonest, rfl⟩ := advances_of_next? undue next
      rw [next] at counted
      have after : time ≤ answer.answered := Nat.le_trans
        (Std.right_le_max : time ≤ max simulation.now time)
        (@le_answered (simulation.perform (.advance time)) _ _ found _ _ counted)
      exact Nat.lt_of_lt_of_le (deadline time soonest) after

/-- Where a run would be over by a limit, it gives up in the end whatever it would then
have given up. -/
theorem Punctual.timedOut_le (punctual : simulation.Punctual asker first turns)
    (orderly : simulation.Orderly) (settled : simulation.Settled)
    (isOver : (simulation.stoppedAt limit).next? = none) (sooner : limit ≤ simulation.stop)
    (ended : simulation.run? budget = some final) :
    ((first.follow turns).expire limit).timedOut ≤
      ((first.follow turns).follow (turnsOf asker simulation (simulation.moves budget))).timedOut := by
  have later := punctual.follow orderly (allowed_moves settled budget)
  have late (answer : Answer) (counted : answer ∈ throughout answers (first.follow turns)
      (turnsOf asker simulation (simulation.moves budget))) :
      limit < answer.asked + (first.follow turns).lifetime := by
    have prompt := later.prompt answer (by
      rw [Consumer.throughout_append]
      exact List.mem_append_right _ counted)
    rw [(kept_follow first turns).2.2.2]
    exact prompt.after (late_answered settled isOver punctual.found counted)
  obtain ⟨moves, isMoves⟩ := moves_of_run? ended
  rw [isMoves, turnsOf_append] at late ⊢
  rw [Consumer.follow_append]
  refine Nat.le_trans (Consumer.timedOut_expire_follow punctual.accounts _ fun answer counted =>
    late answer ?_) (Consumer.timedOut_expire_le sooner)
  rw [Consumer.throughout_append]
  exact List.mem_append_left _ counted

/-- What a run comes to from a point where it would be over by a limit covers what it
would then have come to. -/
theorem covers_of_over (orderly : simulation.Orderly) (settled : simulation.Settled)
    (punctual : ∀ {asker : Nat} {consumer : Consumer}, simulation.consumers[asker]? = some consumer →
      ∃ first turns, consumer = first.follow turns ∧ simulation.Punctual asker first turns)
    (isOver : (simulation.stoppedAt limit).next? = none) (sooner : limit ≤ simulation.stop)
    (ended : simulation.run? budget = some final) :
    final.report.Covers (simulation.stoppedAt limit).conclude.report := by
  have settled' : (simulation.stoppedAt limit).Settled :=
    ⟨settled.links, settled.askers, settled.answerers⟩
  have concludes := settled'.concludes isOver
  have named (moves ending : List Move) (place : Nat) : (simulation.follow moves).nodeName place =
      ((simulation.stoppedAt limit).follow ending).nodeName place :=
    (nodeName_follow moves place).trans
      (@nodeName_follow (simulation.stoppedAt limit) ending place).symm
  rw [conclude_eq_follow, run?_eq_follow ended]
  refine ⟨?_, ?_, ?_⟩ <;>
    refine List.forall₂_map_left_iff.mpr (List.forall₂_map_right_iff.mpr ?_)
  · refine forall₂_of_places (nodes_follow _) (nodes_follow _) fun place node found =>
      ⟨rfl, fun counter => ?_⟩
    show (node.forwarder.run _).counters.value counter ≤ _
    rw [(concludes place).1 node found]
    exact (node.forwarder.grows_run _).le counter
  · refine forall₂_of_places (consumers_follow _) (consumers_follow _) fun asker consumer found => ?_
    obtain ⟨first, turns, rfl, accounted⟩ := punctual found
    obtain ⟨sent, satisfied⟩ :=
      accounted.accounts.counts_le (turnsOf asker simulation (simulation.moves budget))
    obtain ⟨node, _, under, _⟩ := kept_follow (first.follow turns)
      (turnsOf asker simulation (simulation.moves budget))
    rw [(concludes asker).2.1]
    refine ⟨?_, under, sent, satisfied, ?_⟩
    · dsimp only
      rw [node]
      exact named _ _ _
    · exact accounted.timedOut_le orderly settled isOver sooner ended
  · refine forall₂_of_places (producers_follow _) (producers_follow _) fun place producer found =>
      ⟨named _ _ _, rfl, ?_⟩
    dsimp only
    rw [(concludes place).2.2]
    exact Nat.add_le_add_left (Nat.zero_le _) _

/-- A longer run goes on where a shorter one ends. Whatever the shorter run counts, the
longer one counts no less of it, in every node and every application. -/
theorem longer_runs_cover_shorter {scenario : Scenario} {shorter longer : Nat}
    (le : shorter ≤ longer) (passed : scenario.check = .ok ())
    (spans : ∀ setting ∈ scenario.consumers, setting.interval?.isSome = true)
    (nonces : NonceSource) :
    ∃ brief lasting, ofScenario { scenario with duration := shorter } nonces = .ok brief ∧
      ofScenario { scenario with duration := longer } nonces = .ok lasting ∧
      ∀ {budget more : Nat} {short long : Simulation}, brief.run? budget = some short →
        lasting.run? more = some long → long.report.Covers short.report := by
  obtain ⟨lasting, made, setUp⟩ :=
    @exists_ofScenario { scenario with duration := longer } passed spans nonces
  have soon : Duration.ofMillis shorter ≤ lasting.stop := by
    rw [setUp.stop]
    exact Duration.ofMillis_le le
  refine ⟨lasting.stoppedAt (Duration.ofMillis shorter), lasting, ?_, made, fun ended endedLater => ?_⟩
  · refine (ofScenario_lasting { scenario with duration := longer } shorter nonces).trans ?_
    rw [made]
    rfl
  obtain ⟨shared, left, allowed, settled, isOver, rfl, goesOn⟩ :=
    exists_parting soon setUp.settled ended endedLater
  refine covers_of_over (orderly_follow setUp.orderly allowed) settled (fun {asker} {consumer} found => ?_)
    isOver (by rw [stop_follow]; exact soon) goesOn
  rw [consumers_follow] at found
  obtain ⟨first, atFirst, rfl⟩ := Option.map_eq_some_iff.mp found
  exact ⟨first, _, rfl, (setUp.punctual atFirst).follow setUp.orderly allowed⟩

/-- Two more requests are answered when the run between two neighbours lasts longer. -/
theorem longer_runs_cover_shorter_between_neighbours : 250 ≤ 450 ∧ neighbours.check = .ok () ∧
    (∀ setting ∈ neighbours.consumers, setting.interval?.isSome = true) ∧
    ∃ brief lasting short long,
      ofScenario { neighbours with duration := 250 } (.scrambled 1) = .ok brief ∧
      ofScenario { neighbours with duration := 450 } (.scrambled 1) = .ok lasting ∧
      brief.run? 50 = some short ∧ lasting.run? 50 = some long ∧
      short.report.consumers.map (·.satisfied) = [3] ∧
      long.report.consumers.map (·.satisfied) = [5] ∧ long.report.Covers short.report := by
  have passed : neighbours.check = .ok () := by decide +kernel
  have spans : ∀ setting ∈ neighbours.consumers, setting.interval?.isSome = true := by
    decide +kernel
  have le : 250 ≤ 450 := by decide
  obtain ⟨brief, lasting, madeBrief, madeLasting, covers⟩ :=
    longer_runs_cover_shorter le passed spans (.scrambled 1)
  have briefly : ((ofScenario { neighbours with duration := 250 } (.scrambled 1)).toOption.bind
      (runWithin? 5 50)).map (·.report.consumers.map (·.satisfied)) = some [3] := by
    decide +kernel
  have lastingly : ((ofScenario { neighbours with duration := 450 } (.scrambled 1)).toOption.bind
      (runWithin? 5 50)).map (·.report.consumers.map (·.satisfied)) = some [5] := by
    decide +kernel
  rw [madeBrief] at briefly
  rw [madeLasting] at lastingly
  obtain ⟨short, ended, three⟩ := Option.map_eq_some_iff.mp briefly
  obtain ⟨long, endedLater, five⟩ := Option.map_eq_some_iff.mp lastingly
  exact ⟨le, passed, spans, brief, lasting, short, long, madeBrief, madeLasting,
    run?_of_within ended, run?_of_within endedLater, three, five,
    covers (run?_of_within ended) (run?_of_within endedLater)⟩

end Simulation

end NamedData
