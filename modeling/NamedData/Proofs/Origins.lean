import NamedData.Proofs.Rejection
import NamedData.Proofs.Replies
import NamedData.Proofs.WaitHistory

namespace NamedData

namespace Forwarder

variable {action : Action} {before after forwarder start : Forwarder} {id : PitId}
  {entry : PitEntry} {record : InRecord} {face : FaceId} {interest original : Interest}
  {history : List Action} {moment : Instant}

/-- Something was done at a moment of a run, and after it nothing of the same kind. -/
inductive Latest {α κ : Type} (Does : Forwarder → Action → α → Prop) (kind : α → κ)
    (start : Forwarder) : List Action → α → Instant → Prop
  | done {history : List Action} {action : Action} {thing : α}
      (does : Does (start.run history) action thing) :
      Latest Does kind start (history ++ [action]) thing (start.run history).now
  | kept {history : List Action} {action : Action} {thing : α} {moment : Instant}
      (last : Latest Does kind start history thing moment)
      (others : ∀ later, Does (start.run history) action later → kind later ≠ kind thing) :
      Latest Does kind start (history ++ [action]) thing moment

theorem Latest.le_now {α κ : Type} {Does : Forwarder → Action → α → Prop} {kind : α → κ} {thing : α}
    (last : Latest Does kind start history thing moment) (sound : Sound start) :
    moment ≤ (start.run history).now := by
  induction last with
  | @done history action =>
    rw [run_concat]
    exact ((sound.run history).onward action).now
  | @kept history action _ _ _ _ ih =>
    rw [run_concat]
    exact Nat.le_trans ih ((sound.run history).onward action).now

/-- The last thing of its kind stands at a place of the history, and nothing of its kind comes
after it. -/
theorem Latest.exists_split {α κ : Type} {Does : Forwarder → Action → α → Prop} {kind : α → κ}
    {thing : α} (last : Latest Does kind start history thing moment) :
    ∃ earlier action later, history = earlier ++ action :: later ∧
      Does (start.run earlier) action thing ∧
      ∀ between next after other, later = between ++ next :: after →
        Does (start.run (earlier ++ action :: between)) next other → kind other ≠ kind thing := by
  induction last with
  | @done history action thing does =>
    refine ⟨history, action, [], rfl, does, fun between next after other split => ?_⟩
    exact absurd split (by simp)
  | @kept history last thing _ _ others ih =>
    obtain ⟨earlier, action, later, rfl, does, none⟩ := ih
    refine ⟨earlier, action, later ++ [last], by simp, does, ?_⟩
    intro between next after other split does'
    rcases List.eq_nil_or_concat after with rfl | ⟨before, final, rfl⟩
    · -- It is the action that the history has just grown by.
      obtain ⟨rfl, same⟩ := List.append_inj' split rfl
      cases same
      exact others other does'
    · have whole : later ++ [last] = (between ++ next :: before) ++ [final] := by
        rw [split]
        simp
      obtain ⟨same, _⟩ := List.append_inj' whole rfl
      exact none between next before other same does'

/-- An Interest that comes in on a face is let in: it is not dropped and has not looped. -/
inductive LetsIn (forwarder : Forwarder) : Action → FaceId × Interest → Prop
  | receives {face : FaceId} {interest : Interest} (taken : ¬ forwarder.Drops face interest)
      (fresh : ¬ forwarder.Loops face interest) :
      LetsIn forwarder (.receiveInterest face interest) (face, interest)

/-- An Interest was let in on a face at a moment of a run, and after it no other of its
name from there. -/
def LastLetIn (start : Forwarder) (history : List Action) (face : FaceId) (interest : Interest)
    (moment : Instant) : Prop :=
  Latest LetsIn (fun arrival => (arrival.1, arrival.2.name)) start history (face, interest) moment

theorem LastLetIn.unspent (last : LastLetIn start history face interest moment) :
    interest.hopLimit ≠ some 0 := by
  obtain ⟨_, _, _, _, does, _⟩ := Latest.exists_split last
  cases does with
  | receives taken => exact fun spent => taken (Or.inr (Or.inr (Or.inl spent)))

theorem judge_of_letIn (taken : ¬ forwarder.Drops face interest)
    (fresh : ¬ forwarder.Loops face interest) :
    forwarder.judge face interest = .duplicate (forwarder.admitted face interest) ∨
      forwarder.judge face interest = .request (forwarder.admitted face interest) := by
  simp only [Drops, Barred, Loops, not_or, Bool.not_eq_true, Bool.not_eq_false] at taken fresh
  unfold judge
  grind

/-- Who waits in the entry of an Interest that was let in waited before, or has just
asked. -/
theorem Sound.inRecords_of_letIn (sound : Sound forwarder) (taken : ¬ forwarder.Drops face interest)
    (fresh : ¬ forwarder.Loops face interest)
    (found : (forwarder.receiveInterest face interest).pit.get? (forwarder.pit.insert interest.name).1 =
      some entry) (member : record ∈ entry.inRecords) :
    entry.inRecords = PitEntry.putRecord InRecord.face
      (forwarder.newInRecord face (forwarder.admitted face interest))
      (forwarder.entryFor interest.name).inRecords := by
  rcases judge_of_letIn taken fresh with judged | judged
  · exact (joined_receiveInterest sound.matched (sound.entryFor _) judged).upkept.inRecords found
  · rcases handled_receiveInterest sound.matched (sound.entryFor _) judged with
      ⟨upkept, _⟩ | ⟨_, upkept⟩
    · exact upkept.inRecords found
    · -- The cache leaves the entry bare.
      rw [upkept.inRecords found] at member
      cases member

/-- A downstream of an entry was let in just now, or it was there before and nothing of
the name was let in from its face. -/
theorem Sound.downstream_letIn (sound : Sound forwarder) (tidy : forwarder.Tidy)
    (found : (forwarder.act action).pit.get? id = some entry) (member : record ∈ entry.inRecords) :
    (∃ interest, forwarder.LetsIn action (record.face, interest) ∧ interest.name = id.name ∧
      record = forwarder.newInRecord record.face (forwarder.admitted record.face interest)) ∨
    (∃ old, forwarder.pit.get? id = some old ∧ record ∈ old.inRecords) ∧
      ∀ interest, forwarder.LetsIn action (record.face, interest) → interest.name ≠ id.name := by
  have filed := sound.matched.filed
  by_cases lets : ∃ face interest, forwarder.LetsIn action (face, interest)
  · obtain ⟨face, interest, lets⟩ := lets
    cases lets with
    | receives taken fresh =>
      have judged := judge_of_letIn taken fresh
      by_cases mine : (forwarder.pit.insert interest.name).1 = id
      · subst mine
        have named := filed.insert_name interest.name
        have neat := (tidy.act filed (.receiveInterest face interest)).neat found
        have records := sound.inRecords_of_letIn taken fresh found member
        by_cases own : record.face = face
        · subst own
          refine Or.inl ⟨interest, .receives taken fresh, named.symm, ?_⟩
          refine List.inj_on_of_nodup_map neat.ins member ?_ rfl
          rw [records]
          exact PitEntry.self_mem_putRecord _ _ _
        · rw [records] at member
          rcases PitEntry.mem_putRecord member with new | old
          · exact absurd (congrArg InRecord.face new) own
          · refine Or.inr ⟨exists_of_mem_entryFor old, fun other lets => ?_⟩
            cases lets
            exact absurd rfl own
      · obtain ⟨_, upkept⟩ := upkept_receiveInterest sound.matched (sound.entryFor _) judged
        have before : forwarder.pit.get? id = some entry :=
          (upkept.change.entries id (Ne.symm mine)).symm.trans found
        refine Or.inr ⟨⟨entry, before, member⟩, fun other lets named => mine ?_⟩
        cases lets
        rw [named, Pit.insert_of_find? (sound.matched.filed.find?_of_get? before)]
  · refine Or.inr ⟨?_, fun interest letsIn => absurd ⟨_, interest, letsIn⟩ lets⟩
    rcases sound.downstream_act found member with old | ⟨source, interest, rfl, _⟩
    · exact old
    · have unwanted : forwarder.Drops source interest ∨ forwarder.Loops source interest := by
        by_contra wanted
        obtain ⟨taken, fresh⟩ := not_or.mp wanted
        exact lets ⟨source, interest, .receives taken fresh⟩
      obtain ⟨counters, same⟩ := receiveInterest_of_unwanted unwanted
      rw [Forwarder.act, same] at found
      exact ⟨entry, found, member⟩

theorem Step.settings (step : Step action before after) : after.settings = before.settings := by
  cases step with
  | asks => rw [emitInterest_eq]
  | answers => rw [sendData_eq]
  | notes => rw [noteDeadNonces_eq]
  | _ => rfl

theorem Steps.settings (steps : Steps action before after) : after.settings = before.settings := by
  induction steps with
  | refl => rfl
  | tail _ step ih => exact step.settings.trans ih

theorem settings_act (filed : forwarder.pit.Filed) (action : Action) :
    (forwarder.act action).settings = forwarder.settings := by
  have steps := act_steps filed action
  obtain ⟨_, _, _, _, _, _, begins, _⟩ := forwarder.begun_eq action
  exact (Steps.settings steps).trans (by rw [begins])

/-- An Interest from a face that stays is admitted as before. -/
theorem Hosted.admitted_act (hosted : forwarder.Hosted) (filed : forwarder.pit.Filed) (action : Action)
    (was : forwarder.faces.contains face = true)
    (still : (forwarder.act action).faces.contains face = true) :
    (forwarder.act action).admitted face interest = forwarder.admitted face interest := by
  have faces := (Steps.fixed (act_steps filed action)).1
  rw [faces] at still
  have keeps := (faces_begun hosted.bounded action).2 was still
  unfold admitted
  rw [faces, keeps]

/-- The record of a downstream stems from the Interest for the name of its entry that
was let in last from its face. It holds that Interest as it was admitted, and the wait
for its lifetime began then. -/
structure Stems (start : Forwarder) (history : List Action) (id : PitId) (record : InRecord)
    (original : Interest) : Prop where
  named : original.name = id.name
  last : LastLetIn start history record.face original record.renewed
  interest : record.interest = (start.run history).admitted record.face original
  expiry : record.expiry = record.renewed + (start.run history).lifetimeOf original

theorem Sound.stems_step (sound : Sound (start.run history)) (tidy : (start.run history).Tidy)
    (hosted : (start.run history).Hosted)
    (stems : ∀ {id : PitId} {entry : PitEntry} {record : InRecord},
      (start.run history).pit.get? id = some entry → record ∈ entry.inRecords →
      ∃ original, Stems start history id record original)
    (found : (start.run (history ++ [action])).pit.get? id = some entry)
    (member : record ∈ entry.inRecords) :
    ∃ original, Stems start (history ++ [action]) id record original := by
  have filed := sound.matched.filed
  rw [run_concat] at found
  have still := ((sound.act action).recorded found).inFaces member
  have settings := settings_act filed action
  rcases sound.downstream_letIn tidy found member with
    ⟨interest, lets, named, new⟩ | ⟨⟨old, here, listed⟩, others⟩
  · have was : (start.run history).faces.contains record.face = true := by
      cases lets with
      | receives taken => exact Bool.not_eq_false _ ▸ mt Or.inl taken
    refine ⟨interest, named, ?_, ?_, ?_⟩
    · rw [new]
      exact .done lets
    · rw [run_concat, hosted.admitted_act filed action was still, new]
      rfl
    · rw [run_concat, lifetimeOf, settings, new]
      rfl
  · obtain ⟨original, origin⟩ := stems here listed
    have was := (sound.recorded here).inFaces listed
    refine ⟨original, origin.named, .kept origin.last fun later lets same => ?_, ?_, ?_⟩
    · obtain ⟨face, interest⟩ := later
      obtain ⟨rfl, named⟩ := Prod.mk.inj same
      exact others interest lets (named.trans origin.named)
    · rw [run_concat, hosted.admitted_act filed action was still]
      exact origin.interest
    · rw [run_concat, lifetimeOf, settings]
      exact origin.expiry

variable {settings : Settings} {contentStore : ContentStore} {counters : Counters}
  {nonces : NonceSource}

/-- Every downstream waits for an Interest that was let in. -/
theorem exists_stems (made : withParts settings contentStore counters nonces = .ok start)
    (history : List Action) {id : PitId} {entry : PitEntry} {record : InRecord}
    (found : (start.run history).pit.get? id = some entry) (member : record ∈ entry.inRecords) :
    ∃ original, Stems start history id record original := by
  have sound := sound_start made
  induction history using List.reverseRecOn generalizing id entry record with
  | nil =>
    rw [show start.run [] = start from rfl, get?_start made] at found
    cases found
  | append_singleton history action ih =>
    refine (sound.run history).stems_step (sound.tidy_run (tidy_start made) history)
      (sound.hosted_run (hosted_start made) history) ih found member

end Forwarder

end NamedData
