import NamedData.DeadNonceList
import NamedData.Proofs.TimerQueue

namespace NamedData

theorem Duration.lt_add_of_le {a b now span : Duration} (later : a ≤ b) (recent : now < a + span) :
    now < b + span := by
  rw [Duration.lt_def, Duration.nanos_add] at recent ⊢
  have bound : a.nanos ≤ b.nanos := later
  omega

namespace DeadNonceList

variable {list : DeadNonceList} {now time : Instant} {key : RequestKey}

/-- What leaving of a list when notes are dropped from its front keeps: the list is
as it was set up, its notes are the last ones, and no nonce came on. -/
structure Trims (before after : DeadNonceList) : Prop where
  lifetime : after.lifetime = before.lifetime
  capacity : after.capacity = before.capacity
  notes : after.notes <:+ before.notes

/-- In the order that the notes were made, time does not go back. -/
structure Chronicled (list : DeadNonceList) (now : Instant) : Prop where
  sorted : list.notes.Pairwise fun a b => a.noted ≤ b.noted
  past : ∀ record ∈ list.notes, record.noted ≤ now

/-- Every note is still within its lifetime. -/
def Fresh (list : DeadNonceList) (now : Instant) : Prop :=
  ∀ record ∈ list.notes, now < record.noted + list.lifetime

theorem Trims.refl (list : DeadNonceList) : Trims list list := ⟨rfl, rfl, List.suffix_refl _⟩

theorem Trims.trans {before middle after : DeadNonceList} (first : Trims before middle)
    (second : Trims middle after) : Trims before after :=
  ⟨second.lifetime.trans first.lifetime, second.capacity.trans first.capacity,
    second.notes.trans first.notes⟩

theorem Trims.chronicled {after : DeadNonceList} (trims : Trims list after)
    (chronicled : Chronicled list now) : Chronicled after now :=
  ⟨chronicled.sorted.sublist trims.notes.sublist,
    fun record member => chronicled.past record (trims.notes.subset member)⟩

theorem Trims.fresh {after : DeadNonceList} (trims : Trims list after) (fresh : Fresh list now) :
    Fresh after now := by
  intro record member
  rw [trims.lifetime]
  exact fresh record (trims.notes.subset member)

theorem Chronicled.mono {later : Instant} (chronicled : Chronicled list now) (passed : now ≤ later) :
    Chronicled list later :=
  ⟨chronicled.sorted, fun record member => Nat.le_trans (chronicled.past record member) passed⟩

theorem chronicled_empty (lifetime : Duration) (capacity : Nat) (now : Instant) :
    Chronicled (empty lifetime capacity) now :=
  ⟨List.Pairwise.nil, fun _ member => by cases member⟩

/-- Eviction goes through the notes from the front: what it keeps is the rest of
them, the first of which is fresh, and it forgets no nonce that is. -/
theorem evictFrom_spec (notes : List DeadNonce) (list : DeadNonceList) (now : Instant) :
    (list.evictFrom now notes).lifetime = list.lifetime ∧
      (list.evictFrom now notes).capacity = list.capacity ∧
      (list.evictFrom now notes).recent = list.recent ∧
      (list.evictFrom now notes).log <:+ notes ∧
      (∀ record rest, (list.evictFrom now notes).log = record :: rest →
        now < record.noted + list.lifetime) ∧
      ∀ {key : RequestKey} {time : Instant}, list.latest[key]? = some time →
        now < time + list.lifetime → (list.evictFrom now notes).latest[key]? = some time := by
  induction notes generalizing list with
  | nil =>
    exact ⟨rfl, rfl, rfl, List.suffix_refl _, fun _ _ impossible => (by cases impossible),
      fun listed _ => listed⟩
  | cons first rest ih =>
    rw [evictFrom]
    split
    · rename_i late
      split
      · rename_i current
        obtain ⟨lifetime, capacity, recent, suffix, head, keeps⟩ := ih (list.forget first)
        refine ⟨lifetime, capacity, recent, suffix.trans (List.suffix_cons _ _), head, ?_⟩
        intro key time listed young
        refine keeps ?_ young
        -- The note is its nonce's latest, so a fresh nonce is another one.
        show (list.latest.erase first.key)[key]? = some time
        rw [Std.ExtTreeMap.getElem?_erase, if_neg, listed]
        intro same
        have isKey : first.key = key := Std.LawfulEqCmp.eq_of_compare same
        rw [isCurrent, isKey, listed, beq_iff_eq] at current
        rw [Option.some.inj current] at young
        exact Nat.lt_irrefl _ (Nat.lt_of_lt_of_le young late)
      · obtain ⟨lifetime, capacity, recent, suffix, head, keeps⟩ := ih list
        exact ⟨lifetime, capacity, recent, suffix.trans (List.suffix_cons _ _), head, keeps⟩
    · rename_i young
      refine ⟨rfl, rfl, rfl, List.suffix_refl _, ?_, fun listed _ => listed⟩
      intro record others same
      cases same
      exact Nat.lt_of_not_le young

theorem evictFrom_fresh {notes : List DeadNonce} (fresh : ∀ record ∈ notes,
    now < record.noted + list.lifetime) : list.evictFrom now notes = { list with log := notes } := by
  cases notes with
  | nil => rfl
  | cons first rest =>
    have young : ¬ first.noted + list.lifetime ≤ now :=
      Nat.not_le_of_lt (fresh first List.mem_cons_self)
    rw [evictFrom, if_neg young]

theorem evictExpired_spec (list : DeadNonceList) (now : Instant) :
    Trims list (list.evictExpired now) ∧
      (list.notes.Pairwise (fun a b => a.noted ≤ b.noted) → Fresh (list.evictExpired now) now) ∧
      ∀ {key : RequestKey} {time : Instant}, list.latest[key]? = some time →
        now < time + list.lifetime → (list.evictExpired now).latest[key]? = some time := by
  -- A note that is no older than a fresh one is fresh.
  have spread : ∀ {notes : List DeadNonce}, notes.Pairwise (fun a b => a.noted ≤ b.noted) →
      (∀ record rest, notes = record :: rest → now < record.noted + list.lifetime) →
      ∀ record ∈ notes, now < record.noted + list.lifetime := by
    intro notes sorted head record member
    cases notes with
    | nil => cases member
    | cons first rest =>
      have young := head first rest rfl
      rcases List.mem_cons.mp member with same | later
      · rw [same]; exact young
      · exact Duration.lt_add_of_le ((List.pairwise_cons.mp sorted).1 record later) young
  obtain ⟨lifetime, capacity, recent, suffix, head, keeps⟩ := evictFrom_spec list.log list now
  obtain ⟨evicted, isEvicted⟩ : ∃ evicted, evicted = list.evictFrom now list.log := ⟨_, rfl⟩
  rw [← isEvicted] at lifetime capacity recent suffix head keeps
  simp only [evictExpired, ← isEvicted]
  split
  · -- The log is used up, and eviction goes on with the notes made since.
    rename_i bare
    obtain ⟨lifetime', capacity', recent', suffix', head', keeps'⟩ :=
      evictFrom_spec evicted.recent.reverse { evicted with recent := [] } now
    have notes : ({ evicted with recent := [] }.evictFrom now evicted.recent.reverse).notes <:+
        list.notes := by
      rw [DeadNonceList.notes, recent', DeadNonceList.notes, List.reverse_nil, List.append_nil,
        ← recent]
      exact suffix'.trans (List.suffix_append _ _)
    refine ⟨⟨lifetime'.trans lifetime, capacity'.trans capacity, notes⟩, ?_, ?_⟩
    · intro sorted record member
      rw [lifetime']
      show now < record.noted + evicted.lifetime
      rw [lifetime]
      refine spread (sorted.sublist notes.sublist) ?_ record member
      intro first rest same
      rw [DeadNonceList.notes, recent', List.reverse_nil, List.append_nil] at same
      rw [← lifetime]
      exact head' first rest same
    · intro key time listed young
      refine keeps' (keeps listed young) ?_
      show now < time + evicted.lifetime
      rw [lifetime]
      exact young
  · rename_i more
    have notes : evicted.notes <:+ list.notes := by
      obtain ⟨dropped, same⟩ := suffix
      refine ⟨dropped, ?_⟩
      rw [DeadNonceList.notes, DeadNonceList.notes, recent, ← List.append_assoc, same]
    refine ⟨⟨lifetime, capacity, notes⟩, ?_, keeps⟩
    intro sorted record member
    rw [lifetime]
    refine spread (sorted.sublist notes.sublist) ?_ record member
    intro first rest same
    cases log : evicted.log with
    | nil => exact absurd (List.isEmpty_iff.mpr log) more
    | cons oldest others =>
      rw [DeadNonceList.notes, log] at same
      cases same
      exact head first others log

theorem latest_evictExpired (fresh : Fresh list now) :
    (list.evictExpired now).latest = list.latest := by
  have young : ∀ record ∈ list.log, now < record.noted + list.lifetime :=
    fun record member => fresh record (List.mem_append_left _ member)
  have younger : ∀ record ∈ list.recent.reverse, now < record.noted + list.lifetime :=
    fun record member => fresh record (List.mem_append_right _ member)
  simp only [evictExpired, evictFrom_fresh young]
  split
  · rw [evictFrom_fresh]
    exact younger
  · rfl

theorem notes_refill (list : DeadNonceList) (count : Nat) : (list.refill count).notes = list.notes := by
  unfold refill
  split
  · simp [notes]
  · rfl

theorem refill_eq (list : DeadNonceList) (count : Nat) :
    (list.refill count).lifetime = list.lifetime ∧ (list.refill count).capacity = list.capacity ∧
      (list.refill count).latest = list.latest := by
  unfold refill
  split
  · exact ⟨rfl, rfl, rfl⟩
  · exact ⟨rfl, rfl, rfl⟩

/-- Shrinking stops as soon as the list is no longer too long. -/
theorem shrinkFrom_spec (notes : List DeadNonce) (list : DeadNonceList) :
    (list.shrinkFrom notes).lifetime = list.lifetime ∧
      (list.shrinkFrom notes).capacity = list.capacity ∧
      (list.shrinkFrom notes).recent = list.recent ∧
      (list.shrinkFrom notes).log <:+ notes ∧
      (list.capacity ≤ list.size → list.capacity ≤ (list.shrinkFrom notes).size) := by
  induction notes generalizing list with
  | nil => exact ⟨rfl, rfl, rfl, List.suffix_refl _, fun full => full⟩
  | cons first rest ih =>
    rw [shrinkFrom]
    split
    · rename_i tooLong
      split
      · obtain ⟨lifetime, capacity, recent, suffix, full⟩ := ih (list.forget first)
        refine ⟨lifetime, capacity, recent, suffix.trans (List.suffix_cons _ _), fun _ => full ?_⟩
        have fewer : list.latest.size ≤ (list.latest.erase first.key).size + 1 :=
          Std.ExtTreeMap.size_le_size_erase
        show list.capacity ≤ (list.latest.erase first.key).size
        have long : list.capacity < list.latest.size := tooLong
        omega
      · exact ⟨rfl, rfl, rfl, List.suffix_cons _ _, fun full => full⟩
    · exact ⟨rfl, rfl, rfl, List.suffix_refl _, fun full => full⟩

/-- A list that is not too long stays as it is, and one that is becomes full. -/
theorem shrink_spec (list : DeadNonceList) :
    Trims list list.shrink ∧
      (list.shrink = list ∨ list.shrink.capacity ≤ list.shrink.size) := by
  unfold shrink
  split
  · rename_i tooLong
    obtain ⟨ready, isReady⟩ : ∃ ready, ready = list.refill (list.size - list.capacity) := ⟨_, rfl⟩
    have notes := list.notes_refill (list.size - list.capacity)
    obtain ⟨lifetime, capacity, latest⟩ := list.refill_eq (list.size - list.capacity)
    rw [← isReady] at notes lifetime capacity latest
    simp only [← isReady]
    obtain ⟨lifetime', capacity', recent, ⟨dropped, suffix⟩, full⟩ := shrinkFrom_spec ready.log ready
    refine ⟨⟨lifetime'.trans lifetime, capacity'.trans capacity, dropped, ?_⟩, Or.inr ?_⟩
    · rw [← notes, DeadNonceList.notes, recent, ← List.append_assoc, suffix]
      rfl
    · rw [capacity']
      refine full ?_
      rw [size, latest, capacity]
      exact Nat.le_of_lt tooLong
  · exact ⟨.refl list, Or.inl rfl⟩

/-- Puts a note behind all others. -/
def note (list : DeadNonceList) (record : DeadNonce) : DeadNonceList :=
  { list with
    latest := list.latest.insert record.key record.noted
    recent := record :: list.recent }

theorem add_eq (name : Name) (nonce : Nonce) : list.add name nonce now =
    ((list.evictExpired now).note ⟨name, nonce, now⟩).shrink := rfl

theorem notes_note (record : DeadNonce) : (list.note record).notes = list.notes ++ [record] := by
  simp [notes, note]

variable {name : Name} {nonce : Nonce}

theorem add_setup : (list.add name nonce now).lifetime = list.lifetime ∧
    (list.add name nonce now).capacity = list.capacity := by
  have kept := (list.evictExpired_spec now).1
  have trims := (((list.evictExpired now).note ⟨name, nonce, now⟩).shrink_spec).1
  rw [add_eq]
  exact ⟨trims.lifetime.trans kept.lifetime, trims.capacity.trans kept.capacity⟩

theorem chronicled_add (chronicled : Chronicled list now) :
    Chronicled (list.add name nonce now) now := by
  have kept := (list.evictExpired_spec now).1.chronicled chronicled
  rw [add_eq]
  refine (shrink_spec _).1.chronicled ⟨?_, ?_⟩ <;> rw [notes_note]
  · refine List.pairwise_append.mpr ⟨kept.sorted, List.pairwise_singleton _ _, ?_⟩
    intro old member new isNew
    rw [List.mem_singleton.mp isNew]
    exact kept.past old member
  · intro record member
    rcases List.mem_append.mp member with old | new
    · exact kept.past record old
    · rw [List.mem_singleton.mp new]
      exact Nat.le_refl _

theorem fresh_add (sorted : list.notes.Pairwise fun a b => a.noted ≤ b.noted)
    (lasts : now < now + list.lifetime) : Fresh (list.add name nonce now) now := by
  obtain ⟨trims, young, _⟩ := list.evictExpired_spec now
  rw [add_eq]
  refine (shrink_spec _).1.fresh ?_
  intro record member
  rw [notes_note] at member
  rcases List.mem_append.mp member with old | new
  · exact young sorted record old
  · rw [List.mem_singleton.mp new]
    show now < now + (list.evictExpired now).lifetime
    rw [trims.lifetime]
    exact lasts

theorem size_add (fresh : Fresh list now) :
    min list.size list.capacity ≤ (list.add name nonce now).size := by
  have capacity := (@add_setup list now name nonce).2
  have longer : list.size ≤ ((list.evictExpired now).note ⟨name, nonce, now⟩).size := by
    show list.latest.size ≤ ((list.evictExpired now).latest.insert (name, nonce) now).size
    rw [latest_evictExpired fresh]
    exact Std.ExtTreeMap.size_le_size_insert
  rw [add_eq] at capacity ⊢
  rcases (shrink_spec _).2 with same | full
  · rw [same]
    exact Nat.le_trans (Nat.min_le_left _ _) longer
  · rw [capacity] at full
    exact Nat.le_trans (Nat.min_le_right _ _) full

/-- Below the capacity a note only adds to what is listed and still fresh. -/
theorem latest_add (room : (list.add name nonce now).size < list.capacity) :
    (list.add name nonce now).latest = (list.evictExpired now).latest.insert (name, nonce) now := by
  have capacity := (@add_setup list now name nonce).2
  rw [← capacity] at room
  rw [add_eq] at room ⊢
  rcases (shrink_spec _).2 with same | full
  · rw [same]
    rfl
  · exact absurd room (Nat.not_lt_of_le full)

/-- Notes several nonces at one time. -/
def addAll (list : DeadNonceList) (keys : List RequestKey) (now : Instant) : DeadNonceList :=
  keys.foldl (fun list key => list.add key.1 key.2 now) list

theorem addAll_append (first second : List RequestKey) :
    list.addAll (first ++ second) now = (list.addAll first now).addAll second now :=
  List.foldl_append

theorem addAll_setup (keys : List RequestKey) : (list.addAll keys now).lifetime = list.lifetime ∧
    (list.addAll keys now).capacity = list.capacity := by
  induction keys generalizing list with
  | nil => exact ⟨rfl, rfl⟩
  | cons key rest ih =>
    obtain ⟨lifetime, capacity⟩ := @ih (list.add key.1 key.2 now)
    exact ⟨lifetime.trans add_setup.1, capacity.trans add_setup.2⟩

theorem chronicled_addAll (chronicled : Chronicled list now) (keys : List RequestKey) :
    Chronicled (list.addAll keys now) now := by
  induction keys generalizing list with
  | nil => exact chronicled
  | cons key rest ih => exact ih (chronicled_add chronicled)

theorem size_addAll (fresh : Fresh list now) (chronicled : Chronicled list now)
    (lasts : now < now + list.lifetime) (keys : List RequestKey) :
    min list.size list.capacity ≤ (list.addAll keys now).size := by
  induction keys generalizing list with
  | nil => exact Nat.min_le_left _ _
  | cons key rest ih =>
    have setup := @add_setup list now key.1 key.2
    have longer : min list.size list.capacity ≤ (list.add key.1 key.2 now).size := size_add fresh
    have later := @ih (list.add key.1 key.2 now) (fresh_add chronicled.sorted lasts)
      (chronicled_add chronicled) (by rw [setup.1]; exact lasts)
    rw [setup.2] at later
    show _ ≤ ((list.add key.1 key.2 now).addAll rest now).size
    omega

/-- A list that is below its capacity at the end was so all along. -/
theorem room_addAll (chronicled : Chronicled list now) (lasts : now < now + list.lifetime)
    {key : RequestKey} {rest : List RequestKey}
    (room : (list.addAll (key :: rest) now).size < list.capacity) :
    (list.add key.1 key.2 now).size < list.capacity := by
  have setup := @add_setup list now key.1 key.2
  have later := @size_addAll (list.add key.1 key.2 now) now (fresh_add chronicled.sorted lasts)
    (chronicled_add chronicled) (by rw [setup.1]; exact lasts) rest
  rw [setup.2] at later
  have room' : ((list.add key.1 key.2 now).addAll rest now).size < list.capacity := room
  omega

/-- A nonce that is listed, and not past its lifetime, stays listed. -/
theorem addAll_keeps (chronicled : Chronicled list now) (keys : List RequestKey)
    (room : (list.addAll keys now).size < list.capacity) (listed : list.latest[key]? = some time)
    (past : time ≤ now) (young : now < time + list.lifetime) :
    ∃ later, (list.addAll keys now).latest[key]? = some later ∧ time ≤ later ∧ later ≤ now := by
  induction keys generalizing list time with
  | nil => exact ⟨time, listed, Nat.le_refl _, past⟩
  | cons first rest ih =>
    have lasts : now < now + list.lifetime := Duration.lt_add_of_le past young
    have setup := @add_setup list now first.1 first.2
    have room' := room_addAll chronicled lasts room
    have step : ∃ later, (list.add first.1 first.2 now).latest[key]? = some later ∧ time ≤ later ∧
        later ≤ now := by
      rw [latest_add room', Std.ExtTreeMap.getElem?_insert]
      split
      · exact ⟨now, rfl, past, Nat.le_refl _⟩
      · exact ⟨time, (list.evictExpired_spec now).2.2 listed young, Nat.le_refl _, past⟩
    obtain ⟨middle, listed', after, past'⟩ := step
    obtain ⟨later, found, after', bound⟩ := ih (chronicled_add chronicled)
      (by rw [setup.2]; exact room) listed' past'
      (by rw [setup.1]; exact Duration.lt_add_of_le after young)
    exact ⟨later, found, Nat.le_trans after after', bound⟩

theorem addAll_lists (chronicled : Chronicled list now) (keys : List RequestKey)
    (room : (list.addAll keys now).size < list.capacity) (lasts : now < now + list.lifetime)
    (noted : key ∈ keys) : (list.addAll keys now).latest[key]? = some now := by
  induction keys generalizing list with
  | nil => cases noted
  | cons first rest ih =>
    have setup := @add_setup list now first.1 first.2
    have room' := room_addAll chronicled lasts room
    rcases List.mem_cons.mp noted with same | later
    · have listed : (list.add first.1 first.2 now).latest[key]? = some now := by
        rw [latest_add room', same]
        exact Std.ExtTreeMap.getElem?_insert_self
      obtain ⟨time, found, after, bound⟩ := addAll_keeps (chronicled_add chronicled) rest
        (by rw [setup.2]; exact room) listed (Nat.le_refl _) (by rw [setup.1]; exact lasts)
      rw [show (list.addAll (first :: rest) now).latest[key]? = some time from found]
      exact congrArg some (Duration.ext (Nat.le_antisymm bound after))
    · exact ih (chronicled_add chronicled) (by rw [setup.2]; exact room)
        (by rw [setup.1]; exact lasts) later

/-- How a list changes as time goes on: nonces are noted, or those that are past
their lifetime go. -/
inductive Updated (list : DeadNonceList) (now : Instant) : DeadNonceList → Prop
  | noted (keys : List RequestKey) : Updated list now (list.addAll keys now)
  | evicted : Updated list now (list.evictExpired now)

variable {after : DeadNonceList}

theorem Updated.setup (updated : Updated list now after) :
    after.lifetime = list.lifetime ∧ after.capacity = list.capacity := by
  cases updated with
  | noted keys => exact addAll_setup keys
  | evicted =>
    have trims := (list.evictExpired_spec now).1
    exact ⟨trims.lifetime, trims.capacity⟩

theorem Updated.chronicled (updated : Updated list now after) (chronicled : Chronicled list now) :
    Chronicled after now := by
  cases updated with
  | noted keys => exact chronicled_addAll chronicled keys
  | evicted => exact (list.evictExpired_spec now).1.chronicled chronicled

/-- Either way a nonce that is not past its lifetime stays listed. -/
theorem Updated.keeps (updated : Updated list now after) (chronicled : Chronicled list now)
    (room : after.size < list.capacity) (listed : list.latest[key]? = some time)
    (past : time ≤ now) (young : now < time + list.lifetime) :
    ∃ later, after.latest[key]? = some later ∧ time ≤ later ∧ later ≤ now := by
  cases updated with
  | noted keys => exact addAll_keeps chronicled keys room listed past young
  | evicted => exact ⟨time, (list.evictExpired_spec now).2.2 listed young, Nat.le_refl _, past⟩

end DeadNonceList

end NamedData
