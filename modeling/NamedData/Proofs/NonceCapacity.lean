import Mathlib.Data.List.Dedup
import Mathlib.Data.List.Perm.Subperm
import NamedData.Proofs.DeadNonces

namespace NamedData

namespace DeadNonceList

variable {list before middle after : DeadNonceList} {now : Instant} {record : DeadNonce}
  {key : RequestKey}

/-- Two lists say the same, however their notes are laid out. -/
structure Alike (before after : DeadNonceList) : Prop where
  lifetime : after.lifetime = before.lifetime
  capacity : after.capacity = before.capacity
  notes : after.notes = before.notes
  latest : after.latest = before.latest

/-- The oldest note is dropped, and with it the nonce that it speaks for. -/
structure Drops (record : DeadNonce) (before after : DeadNonceList) : Prop where
  lifetime : after.lifetime = before.lifetime
  capacity : after.capacity = before.capacity
  notes : before.notes = record :: after.notes
  latest : after.latest =
    if before.isCurrent record then before.latest.erase record.key else before.latest

/-- Why the oldest note may be dropped. -/
inductive Due (now : Instant) (list : DeadNonceList) (record : DeadNonce) : Prop
  | expired (late : record.noted + list.lifetime ≤ now)
  | crowded (tooLong : list.capacity < list.size)

/-- Notes are dropped one after another, the oldest first. -/
inductive Sheds (now : Instant) : DeadNonceList → DeadNonceList → Prop
  | alike {before after : DeadNonceList} (alike : Alike before after) : Sheds now before after
  | drop {before middle after : DeadNonceList} {record : DeadNonce}
      (due : Due now before record) (drops : Drops record before middle)
      (rest : Sheds now middle after) : Sheds now before after

theorem Alike.refl (list : DeadNonceList) : Alike list list := ⟨rfl, rfl, rfl, rfl⟩

theorem Alike.due (alike : Alike before middle) (due : Due now middle record) :
    Due now before record := by
  cases due with
  | expired late => exact .expired (by rw [← alike.lifetime]; exact late)
  | crowded tooLong => exact .crowded (by rw [← alike.capacity, size, ← alike.latest]; exact tooLong)

theorem Alike.drops (alike : Alike before middle) (drops : Drops record middle after) :
    Drops record before after where
  lifetime := drops.lifetime.trans alike.lifetime
  capacity := drops.capacity.trans alike.capacity
  notes := by rw [← alike.notes, drops.notes]
  latest := by rw [drops.latest, isCurrent, isCurrent, alike.latest]

theorem Sheds.of_alike (alike : Alike before middle) (sheds : Sheds now middle after) :
    Sheds now before after := by
  cases sheds with
  | alike same =>
    exact .alike ⟨same.lifetime.trans alike.lifetime, same.capacity.trans alike.capacity,
      same.notes.trans alike.notes, same.latest.trans alike.latest⟩
  | drop due drops rest => exact .drop (alike.due due) (alike.drops drops) rest

theorem Sheds.trans (first : Sheds now before middle) (second : Sheds now middle after) :
    Sheds now before after := by
  induction first with
  | alike alike => exact second.of_alike alike
  | drop due drops _ ih => exact .drop due drops (ih second)

theorem drops_current {rest : List DeadNonce} (current : list.isCurrent record = true) :
    Drops record { list with log := record :: rest } { list.forget record with log := rest } :=
  ⟨rfl, rfl, rfl, (if_pos current).symm⟩

theorem drops_stale {rest : List DeadNonce} (stale : ¬ list.isCurrent record = true) :
    Drops record { list with log := record :: rest } { list with log := rest } :=
  ⟨rfl, rfl, rfl, (if_neg stale).symm⟩

theorem sheds_evictFrom (notes : List DeadNonce) (list : DeadNonceList) (now : Instant) :
    Sheds now { list with log := notes } (list.evictFrom now notes) := by
  induction notes generalizing list with
  | nil => exact .alike (.refl _)
  | cons first rest ih =>
    rw [evictFrom]
    split
    · rename_i late
      split
      · rename_i current
        exact .drop (.expired late) (drops_current current) (ih _)
      · rename_i stale
        exact .drop (.expired late) (drops_stale stale) (ih _)
    · exact .alike (.refl _)

theorem sheds_evictExpired (list : DeadNonceList) (now : Instant) :
    Sheds now list (list.evictExpired now) := by
  have older := sheds_evictFrom list.log list now
  unfold evictExpired
  dsimp only
  split
  · rename_i bare
    refine (older.trans ?_).trans (sheds_evictFrom _ _ now)
    refine .alike ⟨rfl, rfl, ?_, rfl⟩
    simp [notes, List.isEmpty_iff.mp bare]
  · exact older

theorem sheds_shrinkFrom (notes : List DeadNonce) (list : DeadNonceList) (now : Instant) :
    Sheds now { list with log := notes } (list.shrinkFrom notes) := by
  induction notes generalizing list with
  | nil => exact .alike (.refl _)
  | cons first rest ih =>
    rw [shrinkFrom]
    split
    · rename_i tooLong
      split
      · rename_i current
        exact .drop (.crowded tooLong) (drops_current current) (ih _)
      · rename_i stale
        exact .drop (.crowded tooLong) (drops_stale stale) (.alike (.refl _))
    · exact .alike (.refl _)

theorem alike_refill (list : DeadNonceList) (count : Nat) : Alike list (list.refill count) := by
  obtain ⟨lifetime, capacity, latest⟩ := list.refill_eq count
  exact ⟨lifetime, capacity, list.notes_refill count, latest⟩

theorem sheds_shrink (list : DeadNonceList) (now : Instant) : Sheds now list list.shrink := by
  unfold shrink
  split
  · exact .of_alike (alike_refill list _) (sheds_shrinkFrom _ _ now)
  · exact .alike (.refl _)

theorem log_refill {rest : List DeadNonce} (notes : list.notes = record :: rest) (count : Nat) :
    ∃ others, (list.refill count).log = record :: others := by
  unfold refill
  split
  · exact ⟨rest, notes⟩
  · rename_i more
    cases log : list.log with
    | nil =>
      rw [log, List.drop_nil] at more
      exact absurd rfl more
    | cons first others =>
      rw [DeadNonceList.notes, log] at notes
      cases notes
      exact ⟨others, rfl⟩

/-- A list that is too long loses its oldest note at least. -/
theorem shrink_drops {rest : List DeadNonce} (tooLong : list.capacity < list.size)
    (notes : list.notes = record :: rest) (now : Instant) :
    ∃ middle, Drops record list middle ∧ Sheds now middle list.shrink := by
  obtain ⟨ready, isReady⟩ : ∃ ready, ready = list.refill (list.size - list.capacity) := ⟨_, rfl⟩
  have alike : Alike list ready := by
    rw [isReady]
    exact alike_refill list _
  obtain ⟨others, log⟩ := log_refill notes (list.size - list.capacity)
  rw [← isReady] at log
  have whole : ready = { ready with log := record :: others } := by rw [← log]
  have long : ready.capacity < ready.size := by
    rw [alike.capacity, size, alike.latest]
    exact tooLong
  unfold shrink
  rw [if_pos tooLong]
  simp only [← isReady]
  rw [log, shrinkFrom, if_pos long]
  split
  · rename_i current
    have drops : Drops record { ready with log := record :: others } _ := drops_current current
    rw [← whole] at drops
    exact ⟨_, alike.drops drops, sheds_shrinkFrom others _ now⟩
  · rename_i stale
    have drops : Drops record { ready with log := record :: others } _ := drops_stale stale
    rw [← whole] at drops
    exact ⟨_, alike.drops drops, .alike (.refl _)⟩

/-- Every listed nonce has the note of its last time. -/
def Covered (list : DeadNonceList) : Prop :=
  ∀ (key : RequestKey) (time : Instant), list.latest[key]? = some time →
    ⟨key.1, key.2, time⟩ ∈ list.notes

theorem Drops.getElem?_latest (drops : Drops record before after) {time : Instant}
    (listed : after.latest[key]? = some time) : before.latest[key]? = some time ∧
      (before.isCurrent record = true → record.key ≠ key) := by
  rw [drops.latest] at listed
  split at listed
  · rw [Std.ExtTreeMap.getElem?_erase] at listed
    split at listed
    · cases listed
    · rename_i different
      refine ⟨listed, fun _ same => different ?_⟩
      rw [same]
      exact Std.ReflCmp.compare_self
  · rename_i stale
    exact ⟨listed, fun current => absurd current stale⟩

theorem Drops.covered (drops : Drops record before after) (covered : before.Covered) :
    after.Covered := by
  intro key time listed
  obtain ⟨old, other⟩ := drops.getElem?_latest listed
  have member := covered key time old
  rw [drops.notes] at member
  rcases List.mem_cons.mp member with same | later
  · -- The dropped note would be the one of the last time, and the nonce gone.
    subst same
    refine absurd rfl (other ?_)
    rw [isCurrent, beq_iff_eq]
    exact old
  · exact later

theorem Alike.covered (alike : Alike before after) (covered : before.Covered) : after.Covered := by
  intro key time listed
  rw [alike.notes]
  exact covered key time (by rw [← alike.latest]; exact listed)

theorem Sheds.covered (sheds : Sheds now before after) (covered : before.Covered) :
    after.Covered := by
  induction sheds with
  | alike alike => exact alike.covered covered
  | drop _ drops _ ih => exact ih (drops.covered covered)

theorem note_covered (covered : list.Covered) (record : DeadNonce) : (list.note record).Covered := by
  intro key time listed
  rw [notes_note]
  have found : (list.latest.insert record.key record.noted)[key]? = some time := listed
  rw [Std.ExtTreeMap.getElem?_insert] at found
  split at found
  · rename_i same
    cases found
    have isKey : record.key = key := Std.LawfulEqCmp.eq_of_compare same
    rw [← isKey]
    exact List.mem_append_right _ List.mem_cons_self
  · exact List.mem_append_left _ (covered key time found)

/-- What is listed is no more than a list that has all of it. -/
theorem size_le_length {keys : List RequestKey}
    (known : ∀ {key : RequestKey} {time : Instant}, list.latest[key]? = some time → key ∈ keys) :
    list.size ≤ keys.length := by
  have listed : list.latest.keys ⊆ keys := by
    intro key member
    obtain ⟨time, found⟩ := Option.isSome_iff_exists.mp
      (Std.ExtTreeMap.isSome_getElem?_iff_mem.mpr (Std.ExtTreeMap.mem_keys.mp member))
    exact known found
  have bound := (List.subperm_of_subset Std.ExtTreeMap.nodup_keys listed).length_le
  rwa [Std.ExtTreeMap.length_keys] at bound

/-- No more nonces are listed than there are notes. -/
theorem Covered.size_le (covered : list.Covered) : list.size ≤ list.notes.length := by
  rw [← List.length_map DeadNonce.key]
  exact size_le_length fun {key time} found => List.mem_map.mpr ⟨_, covered key time found, rfl⟩

/-- The notes outnumber what may be listed by at most so many. -/
def Within (surplus : Nat) (list : DeadNonceList) : Prop :=
  list.notes.length ≤ surplus + min list.size list.capacity

theorem Drops.size_le (drops : Drops record before after) : before.size ≤ after.size + 1 := by
  rw [size, size, drops.latest]
  split
  · exact Std.ExtTreeMap.size_le_size_erase
  · exact Nat.le_succ _

theorem Drops.within {surplus : Nat} (drops : Drops record before after)
    (within : Within surplus before) : Within surplus after := by
  have fewer := drops.size_le
  unfold Within at within ⊢
  rw [drops.notes, List.length_cons] at within
  rw [drops.capacity]
  omega

theorem Sheds.within {surplus : Nat} (sheds : Sheds now before after)
    (within : Within surplus before) : Within surplus after := by
  induction sheds with
  | alike alike =>
    rw [Within, alike.notes, size, alike.latest, alike.capacity]
    exact within
  | drop _ drops _ ih => exact ih (drops.within within)

variable {name : Name} {nonce : Nonce}

theorem size_note : (list.note record).size =
    if list.contains record.name record.nonce then list.size else list.size + 1 :=
  Std.ExtTreeMap.size_insert

/-- A note makes the surplus larger only when its nonce is listed already. -/
theorem within_add {surplus : Nat} (within : Within surplus list) :
    Within (surplus + if (list.evictExpired now).contains name nonce then 1 else 0)
      (list.add name nonce now) := by
  have kept : Within surplus (list.evictExpired now) :=
    (sheds_evictExpired list now).within within
  rw [add_eq]
  generalize list.evictExpired now = left at kept ⊢
  have length : (left.note ⟨name, nonce, now⟩).notes.length = left.notes.length + 1 := by
    rw [notes_note, List.length_append, List.length_singleton]
  have size := @size_note left ⟨name, nonce, now⟩
  have capacity : (left.note ⟨name, nonce, now⟩).capacity = left.capacity := rfl
  generalize left.note ⟨name, nonce, now⟩ = noted at length size capacity ⊢
  unfold Within at kept
  by_cases tooLong : noted.capacity < noted.size
  · -- One note goes at least, and while the list is too long its capacity counts.
    cases notes : noted.notes with
    | nil =>
      rw [notes] at length
      cases length
    | cons first rest =>
      obtain ⟨middle, drops, sheds⟩ := shrink_drops tooLong notes now
      refine sheds.within ?_
      have fewer := drops.size_le
      rw [drops.notes, List.length_cons] at length
      rw [Within, drops.capacity]
      omega
  · have whole : noted.shrink = noted := by
      unfold shrink
      rw [if_neg tooLong]
    rw [whole, Within, length]
    split at size <;> rename_i listed <;> simp only [listed, if_true, if_false, Bool.false_eq_true] <;>
      omega

/-- The notes of one nonce get later and later, up to the time that is listed. -/
structure Ordered (list : DeadNonceList) : Prop where
  covered : list.Covered
  spoken : ∀ record ∈ list.notes, ∃ time, list.latest[record.key]? = some time ∧ record.noted ≤ time
  rising : list.notes.Pairwise fun a b => a.key = b.key → a.noted < b.noted

/-- The oldest note, when it speaks for its nonce, is the only one of it. -/
theorem Ordered.alone {rest : List DeadNonce} (ordered : list.Ordered)
    (notes : list.notes = record :: rest) (current : list.isCurrent record = true) :
    record.key ∉ rest.map DeadNonce.key := by
  intro member
  obtain ⟨later, inRest, same⟩ := List.mem_map.mp member
  have rising := ordered.rising
  rw [notes] at rising
  have before : record.noted < later.noted :=
    (List.pairwise_cons.mp rising).1 later inRest same.symm
  obtain ⟨time, listed, bound⟩ := ordered.spoken later (by rw [notes]; exact List.mem_cons_of_mem _ inRest)
  rw [isCurrent, ← same, listed, beq_iff_eq] at current
  cases current
  exact Nat.lt_irrefl _ (Nat.lt_of_lt_of_le before bound)

theorem Drops.ordered (drops : Drops record before after) (ordered : before.Ordered) :
    after.Ordered where
  covered := drops.covered ordered.covered
  spoken other member := by
    obtain ⟨time, listed, bound⟩ :=
      ordered.spoken other (by rw [drops.notes]; exact List.mem_cons_of_mem _ member)
    refine ⟨time, ?_, bound⟩
    rw [drops.latest]
    split
    · rename_i current
      rw [Std.ExtTreeMap.getElem?_erase, if_neg, listed]
      intro same
      have isKey : record.key = other.key := Std.LawfulEqCmp.eq_of_compare same
      exact ordered.alone drops.notes current (List.mem_map.mpr ⟨other, member, isKey.symm⟩)
    · exact listed
  rising := by
    have rising := ordered.rising
    rw [drops.notes] at rising
    exact (List.pairwise_cons.mp rising).2

theorem Sheds.ordered (sheds : Sheds now before after) (ordered : before.Ordered) :
    after.Ordered := by
  induction sheds with
  | alike alike =>
    refine ⟨alike.covered ordered.covered, ?_, ?_⟩
    · rw [alike.notes, alike.latest]
      exact ordered.spoken
    · rw [alike.notes]
      exact ordered.rising
  | drop _ drops _ ih => exact ih (drops.ordered ordered)

theorem note_ordered (ordered : list.Ordered)
    (later : ∀ {time : Instant}, list.latest[record.key]? = some time → time < record.noted) :
    (list.note record).Ordered where
  covered := note_covered ordered.covered record
  spoken other member := by
    rw [notes_note] at member
    show ∃ time, (list.latest.insert record.key record.noted)[other.key]? = some time ∧ _
    rw [Std.ExtTreeMap.getElem?_insert]
    rcases List.mem_append.mp member with old | new
    · obtain ⟨time, listed, bound⟩ := ordered.spoken other old
      split
      · rename_i same
        have isKey : record.key = other.key := Std.LawfulEqCmp.eq_of_compare same
        rw [← isKey] at listed
        exact ⟨record.noted, rfl, Nat.le_of_lt (Nat.lt_of_le_of_lt bound (later listed))⟩
      · exact ⟨time, listed, bound⟩
    · rw [List.mem_singleton.mp new, if_pos Std.ReflCmp.compare_self]
      exact ⟨record.noted, rfl, Nat.le_refl _⟩
  rising := by
    rw [notes_note]
    refine List.pairwise_append.mpr ⟨ordered.rising, List.pairwise_singleton _ _, ?_⟩
    intro old member new isNew same
    rw [List.mem_singleton.mp isNew] at same ⊢
    obtain ⟨time, listed, bound⟩ := ordered.spoken old member
    rw [same] at listed
    exact Nat.lt_of_le_of_lt bound (later listed)

/-- A nonce may leave once the last note of it is past its lifetime, or once so many
other nonces as there is room for were noted after that. -/
def MayLeave (lifetime : Duration) (capacity : Nat) (notes : List DeadNonce) (now : Instant)
    (key : RequestKey) : Prop :=
  ∃ past record since, notes = past ++ record :: since ∧ record.key = key ∧
    key ∉ since.map DeadNonce.key ∧
    (record.noted + lifetime ≤ now ∨ capacity ≤ (since.map DeadNonce.key).dedup.length)

variable {lifetime : Duration} {capacity : Nat} {notes : List DeadNonce}

theorem MayLeave.prepend (leaves : MayLeave lifetime capacity notes now key)
    (earlier : List DeadNonce) : MayLeave lifetime capacity (earlier ++ notes) now key := by
  obtain ⟨past, record, since, same, rest⟩ := leaves
  exact ⟨earlier ++ past, record, since, by rw [same, List.append_assoc], rest⟩

theorem MayLeave.append (leaves : MayLeave lifetime capacity notes now key)
    (other : record.key ≠ key) : MayLeave lifetime capacity (notes ++ [record]) now key := by
  obtain ⟨past, last, since, same, isKey, absent, cause⟩ := leaves
  refine ⟨past, last, since ++ [record], by rw [same, List.append_assoc]; rfl, isKey, ?_, ?_⟩
  · rw [List.map_append, List.mem_append, not_or]
    exact ⟨absent, fun member => other (List.mem_singleton.mp member).symm⟩
  · refine cause.imp_right fun many => Nat.le_trans many ?_
    refine (List.subperm_of_subset (List.nodup_dedup _) fun key member => ?_).length_le
    rw [List.mem_dedup] at member ⊢
    rw [List.map_append]
    exact List.mem_append_left _ member

/-- Every listed nonce but the one that the oldest note speaks for has a later note. -/
theorem Covered.crowd {rest : List DeadNonce} (covered : list.Covered)
    (notes : list.notes = record :: rest) : list.size ≤ (rest.map DeadNonce.key).dedup.length + 1 := by
  have others : list.latest.keys.erase record.key ⊆ (rest.map DeadNonce.key).dedup := by
    intro key member
    obtain ⟨different, listed⟩ := (Std.ExtTreeMap.nodup_keys.mem_erase_iff).mp member
    obtain ⟨time, found⟩ := Option.isSome_iff_exists.mp
      (Std.ExtTreeMap.isSome_getElem?_iff_mem.mpr (Std.ExtTreeMap.mem_keys.mp listed))
    have noted := covered key time found
    rw [notes] at noted
    rcases List.mem_cons.mp noted with same | later
    · rw [← same] at different
      exact absurd rfl different
    · exact List.mem_dedup.mpr (List.mem_map.mpr ⟨_, later, rfl⟩)
  have bound := (List.subperm_of_subset (Std.ExtTreeMap.nodup_keys.erase record.key) others).length_le
  rw [List.length_erase, Std.ExtTreeMap.length_keys] at bound
  show list.latest.size ≤ _
  split at bound <;> omega

theorem Sheds.mayLeave (sheds : Sheds now before after) (ordered : before.Ordered) {time : Instant}
    (listed : before.latest[key]? = some time) (gone : after.latest[key]? = none) :
    MayLeave before.lifetime before.capacity before.notes now key := by
  induction sheds generalizing time with
  | alike alike =>
    rw [alike.latest, listed] at gone
    cases gone
  | @drop before middle after record due drops _ ih =>
    cases still : middle.latest[key]? with
    | some time' =>
      have leaves := ih (drops.ordered ordered) still gone
      rw [drops.lifetime, drops.capacity] at leaves
      rw [drops.notes]
      exact leaves.prepend [record]
    | none =>
      -- It is this note that takes the nonce with it.
      have mine : before.isCurrent record = true ∧ record.key = key := by
        rw [drops.latest] at still
        split at still
        · rename_i current
          rw [Std.ExtTreeMap.getElem?_erase] at still
          split at still
          · rename_i same
            exact ⟨current, Std.LawfulEqCmp.eq_of_compare same⟩
          · rw [listed] at still
            cases still
        · rw [listed] at still
          cases still
      refine ⟨[], record, middle.notes, drops.notes, mine.2, ?_, ?_⟩
      · rw [← mine.2]
        exact ordered.alone drops.notes mine.1
      · cases due with
        | expired late => exact Or.inl late
        | crowded tooLong =>
          have crowd := ordered.covered.crowd drops.notes
          exact Or.inr (by omega)

theorem Sheds.listed (sheds : Sheds now before after) {time : Instant}
    (listed : after.latest[key]? = some time) : before.latest[key]? = some time := by
  induction sheds with
  | alike alike =>
    rw [← alike.latest]
    exact listed
  | drop _ drops _ ih => exact (drops.getElem?_latest (ih listed)).1

/-- What a list is asked to do. -/
inductive Call where
  | add (name : Name) (nonce : Nonce) (time : Instant)
  | evict (time : Instant)

def Call.time : Call → Instant
  | .add _ _ time => time
  | .evict time => time

def Call.noted : Call → List DeadNonce
  | .add name nonce time => [⟨name, nonce, time⟩]
  | .evict _ => []

def call (list : DeadNonceList) : Call → DeadNonceList
  | .add name nonce time => list.add name nonce time
  | .evict time => list.evictExpired time

def afterCalls (list : DeadNonceList) (calls : List Call) : DeadNonceList := calls.foldl call list

/-- A nonce is noted that is listed already. -/
def renews (list : DeadNonceList) : Call → Bool
  | .add name nonce time => (list.evictExpired time).contains name nonce
  | .evict _ => false

def renewals (list : DeadNonceList) : List Call → Nat
  | [] => 0
  | first :: rest => (if list.renews first then 1 else 0) + (list.call first).renewals rest

/-- A nonce is noted at the very time for which it is listed already. -/
def repeats (list : DeadNonceList) : Call → Bool
  | .add name nonce time => (list.evictExpired time).isCurrent ⟨name, nonce, time⟩
  | .evict _ => false

/-- No nonce is noted again at the time for which it is listed. -/
def apart (list : DeadNonceList) : List Call → Bool
  | [] => true
  | first :: rest => !list.repeats first && (list.call first).apart rest

theorem apart_cons {first : Call} {rest : List Call} (apart : list.apart (first :: rest) = true) :
    list.repeats first = false ∧ (list.call first).apart rest = true := by
  obtain ⟨once, later⟩ := Bool.and_eq_true_iff.mp apart
  exact ⟨Bool.not_eq_true' _ ▸ once, later⟩

theorem afterCalls_append (earlier later : List Call) :
    list.afterCalls (earlier ++ later) = (list.afterCalls earlier).afterCalls later :=
  List.foldl_append

theorem call_setup (call : Call) : (list.call call).lifetime = list.lifetime ∧
    (list.call call).capacity = list.capacity := by
  cases call with
  | add name nonce time => exact add_setup
  | evict time =>
    have trims := (list.evictExpired_spec time).1
    exact ⟨trims.lifetime, trims.capacity⟩

theorem afterCalls_setup (calls : List Call) : (list.afterCalls calls).lifetime = list.lifetime ∧
    (list.afterCalls calls).capacity = list.capacity := by
  induction calls generalizing list with
  | nil => exact ⟨rfl, rfl⟩
  | cons first rest ih =>
    obtain ⟨lifetime, capacity⟩ := @ih (list.call first)
    have setup := list.call_setup first
    exact ⟨lifetime.trans setup.1, capacity.trans setup.2⟩

theorem covered_call (covered : list.Covered) (call : Call) : (list.call call).Covered := by
  cases call with
  | add name nonce time =>
    have kept := (sheds_evictExpired list time).covered covered
    exact (sheds_shrink _ time).covered (note_covered kept ⟨name, nonce, time⟩)
  | evict time => exact (sheds_evictExpired list time).covered covered

theorem within_call {surplus : Nat} (within : Within surplus list) (call : Call) :
    Within (surplus + if list.renews call then 1 else 0) (list.call call) := by
  cases call with
  | add name nonce time => exact within_add within
  | evict time => exact (sheds_evictExpired list time).within within

theorem size_afterCalls {surplus : Nat} (covered : list.Covered) (within : Within surplus list)
    (calls : List Call) :
    (list.afterCalls calls).size ≤ list.capacity + (surplus + list.renewals calls) := by
  induction calls generalizing list surplus with
  | nil =>
    have bound := covered.size_le
    unfold Within at within
    show list.size ≤ _
    omega
  | cons first rest ih =>
    have bound := ih (covered_call covered first) (within_call within first)
    rw [(list.call_setup first).2, Nat.add_assoc surplus] at bound
    exact bound

theorem notes_call (call : Call) : (list.call call).notes <:+ list.notes ++ call.noted := by
  cases call with
  | add name nonce time =>
    obtain ⟨dropped, same⟩ := (list.evictExpired_spec time).1.notes
    have shorter := ((list.evictExpired time).note ⟨name, nonce, time⟩).shrink_spec.1.notes
    rw [notes_note] at shorter
    refine shorter.trans ⟨dropped, ?_⟩
    rw [← List.append_assoc, same]
    rfl
  | evict time =>
    rw [Call.noted, List.append_nil]
    exact (list.evictExpired_spec time).1.notes

theorem notes_afterCalls (calls : List Call) :
    (list.afterCalls calls).notes <:+ list.notes ++ calls.flatMap Call.noted := by
  induction calls generalizing list with
  | nil =>
    rw [List.flatMap_nil, List.append_nil]
    exact List.suffix_refl _
  | cons first rest ih =>
    obtain ⟨dropped, same⟩ := list.notes_call first
    refine (@ih (list.call first)).trans ⟨dropped, ?_⟩
    rw [List.flatMap_cons, ← List.append_assoc, same, List.append_assoc]

/-- No listed nonce is from after a time. -/
def Past (list : DeadNonceList) (now : Instant) : Prop :=
  ∀ (key : RequestKey) (time : Instant), list.latest[key]? = some time → time ≤ now

theorem past_call {call : Call} (past : list.Past call.time) :
    (list.call call).Past call.time := by
  intro key time listed
  cases call with
  | add name nonce now =>
    have noted := (sheds_shrink _ now).listed listed
    have found : ((list.evictExpired now).latest.insert (name, nonce) now)[key]? = some time := noted
    rw [Std.ExtTreeMap.getElem?_insert] at found
    split at found
    · cases found
      exact Nat.le_refl _
    · exact past key time ((sheds_evictExpired list now).listed found)
  | evict now => exact past key time ((sheds_evictExpired list now).listed listed)

/-- A nonce that may be noted again is listed with an earlier time. -/
theorem note_ordered_of_past (ordered : list.Ordered) (past : list.Past now)
    (apart : list.isCurrent ⟨name, nonce, now⟩ = false) :
    (list.note ⟨name, nonce, now⟩).Ordered := by
  refine note_ordered ordered fun {time} listed => ?_
  refine Nat.lt_of_le_of_ne (past _ time listed) fun same => ?_
  have sameTime : time = now := Duration.ext same
  rw [isCurrent, listed, sameTime] at apart
  simp at apart

theorem Past.evicted (past : list.Past now) : (list.evictExpired now).Past now :=
  fun key time listed => past key time ((sheds_evictExpired list now).listed listed)

theorem ordered_call {call : Call} (ordered : list.Ordered) (past : list.Past call.time)
    (once : list.repeats call = false) : (list.call call).Ordered := by
  cases call with
  | add name nonce now =>
    have kept := (sheds_evictExpired list now).ordered ordered
    have noted := note_ordered_of_past kept past.evicted once
    exact (sheds_shrink _ now).ordered noted
  | evict now => exact (sheds_evictExpired list now).ordered ordered

/-- A nonce that a call takes off the list may leave. -/
theorem mayLeave_call {call : Call} (ordered : list.Ordered) (past : list.Past call.time)
    (once : list.repeats call = false) {time : Instant} (listed : list.latest[key]? = some time)
    (gone : (list.call call).latest[key]? = none) :
    MayLeave list.lifetime list.capacity (list.notes ++ call.noted) call.time key := by
  cases call with
  | evict now =>
    rw [Call.noted, List.append_nil]
    exact (sheds_evictExpired list now).mayLeave ordered listed gone
  | add name nonce now =>
    obtain ⟨trims, _, _⟩ := list.evictExpired_spec now
    obtain ⟨dropped, same⟩ := trims.notes
    have kept := (sheds_evictExpired list now).ordered ordered
    have noted := note_ordered_of_past kept past.evicted once
    cases still : ((list.evictExpired now).note ⟨name, nonce, now⟩).latest[key]? with
    | some time' =>
      have leaves := (sheds_shrink _ now).mayLeave noted still gone
      rw [notes_note] at leaves
      have whole := leaves.prepend dropped
      rw [← List.append_assoc, same] at whole
      rw [← trims.lifetime, ← trims.capacity]
      exact whole
    | none =>
      have missing : ((list.evictExpired now).latest.insert (name, nonce) now)[key]? = none := still
      rw [Std.ExtTreeMap.getElem?_insert] at missing
      split at missing
      · cases missing
      · rename_i different
        refine ((sheds_evictExpired list now).mayLeave ordered listed missing).append fun isKey => ?_
        exact different (by rw [← isKey]; exact Std.ReflCmp.compare_self)

theorem ordered_afterCalls {earlier later : List Call} (ordered : list.Ordered)
    (past : ∀ call ∈ earlier ++ later, list.Past call.time)
    (timely : (earlier ++ later).Pairwise fun a b => a.time ≤ b.time)
    (apart : list.apart (earlier ++ later) = true) :
    (list.afterCalls earlier).Ordered ∧
      (∀ call ∈ later, (list.afterCalls earlier).Past call.time) ∧
      (list.afterCalls earlier).apart later = true := by
  induction earlier generalizing list with
  | nil => exact ⟨ordered, past, apart⟩
  | cons first rest ih =>
    have now := past first List.mem_cons_self
    obtain ⟨order, timely'⟩ := List.pairwise_cons.mp timely
    obtain ⟨once, apart'⟩ := apart_cons apart
    refine ih (ordered_call ordered now once) (fun call member key time listed => ?_) timely' apart'
    exact Nat.le_trans (past_call now key time listed) (order call member)

variable {calls : List Call}

theorem ordered_empty (lifetime : Duration) (capacity : Nat) :
    (empty lifetime capacity).Ordered ∧ ∀ now, (empty lifetime capacity).Past now := by
  have nothing {key : RequestKey} {time : Instant} :
      (empty lifetime capacity).latest[key]? ≠ some time := by simp [empty]
  exact ⟨⟨fun key time listed => absurd listed nothing, fun record member => (by cases member),
    List.Pairwise.nil⟩, fun now key time listed => absurd listed nothing⟩

/-- A list outgrows its capacity by no more nonces than were noted while they were
listed. Unless a nonce was noted twice at one time, it leaves only when the last
note of it is past its lifetime or when as many other nonces as there is room for
were noted after that. -/
theorem nonces_leave_in_order (room : 1 ≤ capacity)
    (timely : calls.Pairwise fun a b => a.time ≤ b.time) :
    ((empty lifetime capacity).afterCalls calls).size ≤
        capacity + (empty lifetime capacity).renewals calls ∧
      ((empty lifetime capacity).apart calls = true →
        ∀ {earlier later : List Call} {call : Call} {name : Name} {nonce : Nonce},
          calls = earlier ++ call :: later →
          ((empty lifetime capacity).afterCalls earlier).contains name nonce = true →
          ((empty lifetime capacity).afterCalls (earlier ++ [call])).contains name nonce = false →
          MayLeave lifetime capacity ((earlier ++ [call]).flatMap Call.noted) call.time
            (name, nonce)) := by
  have setup : (empty lifetime capacity).capacity = capacity := Nat.max_eq_left room
  obtain ⟨ordered, past⟩ := ordered_empty lifetime capacity
  refine ⟨?_, ?_⟩
  · have within : Within 0 (empty lifetime capacity) := Nat.zero_le _
    have bound := size_afterCalls ordered.covered within calls
    rw [setup, Nat.zero_add] at bound
    exact bound
  · rintro apart earlier later call name nonce rfl listed gone
    obtain ⟨ordered', past', apart'⟩ :=
      ordered_afterCalls ordered (fun call _ => past call.time) timely apart
    obtain ⟨sameLifetime, sameCapacity⟩ := (empty lifetime capacity).afterCalls_setup earlier
    obtain ⟨dropped, same⟩ := (empty lifetime capacity).notes_afterCalls earlier
    rw [contains, Std.ExtTreeMap.contains_eq_isSome_getElem?] at listed gone
    obtain ⟨time, found⟩ := Option.isSome_iff_exists.mp listed
    rw [afterCalls_append, Option.isSome_eq_false_iff, Option.isNone_iff_eq_none] at gone
    have leaves := mayLeave_call ordered' (past' call List.mem_cons_self) (apart_cons apart').1 found gone
    have whole := leaves.prepend dropped
    rw [← List.append_assoc, same, sameLifetime, sameCapacity, setup] at whole
    rw [List.flatMap_append, List.flatMap_singleton]
    exact whole

/-- Three nonces are noted where there is room for two. -/
def crowding : List Call :=
  [.add ⟨[[97]]⟩ 1 (.ofMillis 1), .add ⟨[[97]]⟩ 2 (.ofMillis 2), .add ⟨[[97]]⟩ 3 (.ofMillis 3)]

theorem nonces_leave_in_order_when_crowded :
    ((empty (.ofSeconds 60 0) 2).afterCalls crowding).size ≤ 2 ∧
      MayLeave (.ofSeconds 60 0) 2 (crowding.flatMap Call.noted) (.ofMillis 3) (⟨[[97]]⟩, 1) := by
  obtain ⟨bound, leaves⟩ := @nonces_leave_in_order (.ofSeconds 60 0) 2 crowding (by decide) (by decide)
  have never : (empty (.ofSeconds 60 0) 2).renewals crowding = 0 := by decide
  rw [never] at bound
  exact ⟨bound, @leaves (by decide) (crowding.take 2) [] _ _ _ rfl (by decide) (by decide)⟩

/-- A note that no longer speaks for its nonce ends the search while the list is too
long, and one that was made again at the same time takes its nonce with it. -/
theorem nonces_do_not_leave_in_order :
    1 < ((empty (.ofSeconds 6 0) 1).afterCalls [.add ⟨[[97]]⟩ 1 .zero,
        .add ⟨[[97]]⟩ 1 (.ofMillis 1), .add ⟨[[98]]⟩ 2 (.ofMillis 2)]).size ∧
      ((empty (.ofSeconds 6 0) 2).afterCalls [.add ⟨[[97]]⟩ 1 .zero, .add ⟨[[98]]⟩ 2 .zero,
        .add ⟨[[97]]⟩ 1 .zero]).contains ⟨[[97]]⟩ 1 = true ∧
      ((empty (.ofSeconds 6 0) 2).afterCalls [.add ⟨[[97]]⟩ 1 .zero, .add ⟨[[98]]⟩ 2 .zero,
        .add ⟨[[97]]⟩ 1 .zero, .add ⟨[[99]]⟩ 3 .zero]).contains ⟨[[97]]⟩ 1 = false ∧
      ¬ MayLeave (.ofSeconds 6 0) 2 [⟨⟨[[97]]⟩, 1, .zero⟩, ⟨⟨[[98]]⟩, 2, .zero⟩,
        ⟨⟨[[97]]⟩, 1, .zero⟩, ⟨⟨[[99]]⟩, 3, .zero⟩] .zero (⟨[[97]]⟩, 1) := by
  refine ⟨by decide, by decide, by decide, ?_⟩
  rintro ⟨past, record, since, same, isKey, absent, cause⟩
  -- The last note of the nonce is the third, and one other came after it.
  rcases past with _ | ⟨_, _ | ⟨_, _ | ⟨_, _ | ⟨_, rest⟩⟩⟩⟩
  · cases same
    exact absent (by decide)
  · cases same
    exact absurd isKey (by decide)
  · cases same
    exact absurd cause (by decide)
  · cases same
    exact absurd isKey (by decide)
  · have length := congrArg List.length same
    simp only [List.cons_append, List.length_cons, List.length_append, List.length_nil] at length
    omega

end DeadNonceList

end NamedData
