import Mathlib.Data.List.Induction
import Mathlib.Data.List.Infix
import NamedData.Proofs.NonceCapacity

namespace NamedData

namespace DeadNonceList

variable {list before after : DeadNonceList} {lifetime : Duration} {capacity : Nat}
  {now time : Instant} {key : RequestKey} {calls : List Call} {name : Name} {nonce : Nonce}

/-- The time at which a call notes a nonce, if it notes this one. -/
def Call.notes? (key : RequestKey) : Call → Option Instant
  | .add name nonce time => if (name, nonce) = key then some time else none
  | .evict _ => none

/-- When a nonce was noted last. -/
def lastNoted? (calls : List Call) (key : RequestKey) : Option Instant :=
  calls.reverse.findSome? (Call.notes? key)

/-- The nonces that were noted, each once, whose last note is within its lifetime. -/
def unexpired (lifetime : Duration) (calls : List Call) (now : Instant) : List RequestKey :=
  ((calls.flatMap Call.noted).map DeadNonce.key).dedup.filter fun key =>
    (lastNoted? calls key).any fun time => now < time + lifetime

/-- At no call are more nonces within their lifetime than there is room for. -/
def Fits (lifetime : Duration) (capacity : Nat) (calls : List Call) : Prop :=
  ∀ past ∈ calls.inits, ∀ call ∈ past.getLast?,
    (unexpired lifetime past call.time).length ≤ capacity

instance : Decidable (Fits lifetime capacity calls) := by unfold Fits; infer_instance

theorem lastNoted?_concat (calls : List Call) (call : Call) (key : RequestKey) :
    lastNoted? (calls ++ [call]) key = (call.notes? key).or (lastNoted? calls key) := by
  rw [lastNoted?, lastNoted?, List.reverse_append, List.findSome?_append, List.reverse_singleton,
    List.findSome?_singleton]

theorem mem_noted_of_lastNoted? (last : lastNoted? calls key = some time) :
    key ∈ (calls.flatMap Call.noted).map DeadNonce.key := by
  obtain ⟨call, member, notes⟩ := List.exists_of_findSome?_eq_some last
  cases call with
  | evict => cases notes
  | add name nonce noted =>
    rw [Call.notes?] at notes
    split at notes
    · rename_i same
      refine List.mem_map.mpr ⟨⟨name, nonce, noted⟩, ?_, same⟩
      exact List.mem_flatMap.mpr ⟨_, List.mem_reverse.mp member, List.mem_singleton_self _⟩
    · cases notes

theorem mem_unexpired : key ∈ unexpired lifetime calls now ↔
    ∃ time, lastNoted? calls key = some time ∧ now < time + lifetime := by
  rw [unexpired, List.mem_filter, List.mem_dedup, Option.any_eq_true]
  constructor
  · rintro ⟨_, time, last, young⟩
    exact ⟨time, last, of_decide_eq_true young⟩
  · rintro ⟨time, last, young⟩
    exact ⟨mem_noted_of_lastNoted? last, time, last, decide_eq_true young⟩

/-- A list is right about the calls so far: it has each nonce with the time of its last
note and lists all that are within their lifetime, and the notes are there in order. -/
structure Exact (calls : List Call) (now : Instant) (list : DeadNonceList) : Prop where
  last : ∀ {key : RequestKey} {time : Instant}, list.latest[key]? = some time →
    lastNoted? calls key = some time
  listed : ∀ {key : RequestKey} {time : Instant}, lastNoted? calls key = some time →
    now < time + list.lifetime → list.latest[key]? = some time
  covered : list.Covered
  chronicled : Chronicled list now

theorem exact_empty (lifetime : Duration) (capacity : Nat) (now : Instant) :
    Exact [] now (empty lifetime capacity) where
  last found := by simp [empty] at found
  listed impossible := by cases impossible
  covered := (ordered_empty lifetime capacity).1.covered
  chronicled := chronicled_empty lifetime capacity now

theorem Exact.mono {later : Instant} (exact : Exact calls now list) (passed : now ≤ later) :
    Exact calls later list where
  last := exact.last
  listed last young := exact.listed last (Nat.lt_of_le_of_lt passed young)
  covered := exact.covered
  chronicled := exact.chronicled.mono passed

/-- An eviction leaves just the nonces that are within their lifetime. -/
theorem Exact.getElem?_evictExpired (exact : Exact calls now list) :
    (list.evictExpired now).latest[key]? = some time ↔
      lastNoted? calls key = some time ∧ now < time + list.lifetime := by
  obtain ⟨trims, fresh, keeps⟩ := list.evictExpired_spec now
  have sheds := sheds_evictExpired list now
  constructor
  · intro found
    -- Its note is still there, and no note is left that is past its lifetime.
    have young := fresh exact.chronicled.sorted _ (sheds.covered exact.covered key time found)
    rw [trims.lifetime] at young
    exact ⟨exact.last (sheds.listed found), young⟩
  · rintro ⟨last, young⟩
    exact keeps (exact.listed last young) young

theorem Exact.evict (exact : Exact calls now list) :
    Exact (calls ++ [.evict now]) now (list.call (.evict now)) := by
  obtain ⟨trims, _, _⟩ := list.evictExpired_spec now
  have same (key : RequestKey) : lastNoted? (calls ++ [.evict now]) key = lastNoted? calls key :=
    lastNoted?_concat calls (.evict now) key
  refine ⟨fun found => ?_, fun last young => ?_, ?_, trims.chronicled exact.chronicled⟩
  · rw [same]
    exact (exact.getElem?_evictExpired.mp found).1
  · rw [same] at last
    have young' : now < _ + (list.evictExpired now).lifetime := young
    rw [trims.lifetime] at young'
    exact exact.getElem?_evictExpired.mpr ⟨last, young'⟩
  · exact (sheds_evictExpired list now).covered exact.covered

/-- A nonce that is noted counts from now; any other is listed while within its lifetime. -/
theorem Exact.getElem?_note (exact : Exact calls now list) :
    ((list.evictExpired now).note ⟨name, nonce, now⟩).latest[key]? = some time ↔
      if (name, nonce) = key then now = time
      else lastNoted? calls key = some time ∧ now < time + list.lifetime := by
  have found : ((list.evictExpired now).note ⟨name, nonce, now⟩).latest[key]? =
      if RequestKey.order (name, nonce) key = .eq then some now
      else (list.evictExpired now).latest[key]? := Std.ExtTreeMap.getElem?_insert
  rw [found]
  by_cases same : (name, nonce) = key
  · rw [if_pos same, same, if_pos Std.ReflCmp.compare_self, Option.some.injEq]
  · have apart : RequestKey.order (name, nonce) key ≠ .eq :=
      fun equal => same (Std.LawfulEqCmp.eq_of_compare equal)
    rw [if_neg same, if_neg apart, exact.getElem?_evictExpired]

theorem Exact.past (exact : Exact calls now list) (found : list.latest[key]? = some time) :
    time ≤ now := exact.chronicled.past _ (exact.covered key time found)

/-- When a nonce is noted, what is listed is within its lifetime. At the end of time,
where no lifetime lasts, it is alone. -/
theorem Exact.size_note (exact : Exact calls now list)
    (room : (unexpired list.lifetime (calls ++ [.add name nonce now]) now).length ≤ list.capacity)
    (least : 1 ≤ list.capacity) :
    ((list.evictExpired now).note ⟨name, nonce, now⟩).size ≤ list.capacity := by
  by_cases lasts : now < now + list.lifetime
  · refine Nat.le_trans (size_le_length fun {key time} found => ?_) room
    rw [mem_unexpired, lastNoted?_concat, Call.notes?]
    have known := exact.getElem?_note.mp found
    split at known
    · rename_i same
      exact ⟨now, by rw [if_pos same]; rfl, lasts⟩
    · rename_i different
      exact ⟨time, by rw [if_neg different]; exact known.1, known.2⟩
  · refine Nat.le_trans (size_le_length fun {key time} found => ?_)
      (show [(name, nonce)].length ≤ list.capacity from least)
    have known := exact.getElem?_note.mp found
    split at known
    · rename_i same
      exact List.mem_singleton.mpr same.symm
    · have early := exact.past (exact.listed known.1 known.2)
      exact absurd (Duration.lt_add_of_le early known.2) lasts

theorem Exact.add (exact : Exact calls now list)
    (room : (unexpired list.lifetime (calls ++ [.add name nonce now]) now).length ≤ list.capacity)
    (least : 1 ≤ list.capacity) :
    Exact (calls ++ [.add name nonce now]) now (list.call (.add name nonce now)) := by
  obtain ⟨trims, _, _⟩ := list.evictExpired_spec now
  have short : ¬ ((list.evictExpired now).note ⟨name, nonce, now⟩).capacity <
      ((list.evictExpired now).note ⟨name, nonce, now⟩).size := by
    show ¬ (list.evictExpired now).capacity < _
    rw [trims.capacity]
    exact Nat.not_lt_of_le (exact.size_note room least)
  have whole : list.call (.add name nonce now) =
      (list.evictExpired now).note ⟨name, nonce, now⟩ := by
    rw [call, add_eq, shrink, if_neg short]
  refine ⟨?_, ?_, covered_call exact.covered _, chronicled_add exact.chronicled⟩
  · intro key time found
    rw [whole] at found
    rw [lastNoted?_concat, Call.notes?]
    have known := exact.getElem?_note.mp found
    split at known
    · rename_i same
      rw [if_pos same, known]
      rfl
    · rename_i different
      rw [if_neg different]
      exact known.1
  · intro key time last young
    rw [(list.call_setup _).1] at young
    rw [whole]
    refine exact.getElem?_note.mpr ?_
    rw [lastNoted?_concat, Call.notes?] at last
    split
    · rename_i same
      rw [if_pos same] at last
      exact Option.some.inj last
    · rename_i different
      rw [if_neg different] at last
      exact ⟨last, young⟩

theorem fits_of_append {later : List Call} (fits : Fits lifetime capacity (calls ++ later)) :
    Fits lifetime capacity calls := by
  intro past isPast
  refine fits past (List.mem_inits past _ |>.mpr ?_)
  exact ((List.mem_inits past _).mp isPast).trans (List.prefix_append _ _)

theorem fits_concat {call : Call} (fits : Fits lifetime capacity (calls ++ [call])) :
    (unexpired lifetime (calls ++ [call]) call.time).length ≤ capacity := by
  refine fits _ ((List.mem_inits _ _).mpr (List.prefix_refl _)) call ?_
  simp

/-- A list that has room is right about every timely sequence of calls. -/
theorem exact_afterCalls (timely : calls.Pairwise fun a b => a.time ≤ b.time)
    (fits : Fits lifetime capacity calls) (past : ∀ call ∈ calls, call.time ≤ now) :
    Exact calls now ((empty lifetime capacity).afterCalls calls) := by
  induction calls using List.reverseRecOn generalizing now with
  | nil => exact exact_empty lifetime capacity now
  | append_singleton earlier call ih =>
    obtain ⟨timely', _, before⟩ := List.pairwise_append.mp timely
    have exact : Exact earlier call.time ((empty lifetime capacity).afterCalls earlier) :=
      ih timely' (fits_of_append fits) fun old member => before old member call (List.mem_singleton_self _)
    obtain ⟨sameLifetime, sameCapacity⟩ := (empty lifetime capacity).afterCalls_setup earlier
    have room := fits_concat fits
    have passed : call.time ≤ now := past call (List.mem_append_right _ (List.mem_singleton_self _))
    rw [afterCalls_append]
    cases call with
    | evict time => exact exact.evict.mono passed
    | add name nonce time =>
      refine Exact.mono (exact.add ?_ ?_) passed
      · rw [sameLifetime, sameCapacity]
        exact Nat.le_trans room (Nat.le_max_left _ _)
      · rw [sameCapacity]
        exact Nat.le_max_right _ _

theorem size_forget {record : DeadNonce} (current : list.isCurrent record = true) :
    (list.forget record).size + 1 = list.size := by
  have listed : record.key ∈ list.latest := by
    rw [← Std.ExtTreeMap.isSome_getElem?_iff_mem, eq_of_beq current]
    rfl
  have some : 0 < list.latest.size := by
    rw [← Std.ExtTreeMap.length_keys]
    exact List.length_pos_of_mem (Std.ExtTreeMap.mem_keys.mpr listed)
  have shorter : (list.forget record).size = list.latest.size - 1 := by
    show (list.latest.erase record.key).size = _
    rw [Std.ExtTreeMap.size_erase, if_pos (Std.ExtTreeMap.contains_iff_mem.mpr listed)]
  rw [shorter]
  exact Nat.sub_add_cancel some

/-- Every note that is counted takes its nonce with it. -/
theorem size_evictFrom (notes : List DeadNonce) (list : DeadNonceList) (now : Instant) :
    (list.evictFrom now notes).size + list.expiredFrom now notes = list.size := by
  induction notes generalizing list with
  | nil => rfl
  | cons first rest ih =>
    rw [evictFrom, expiredFrom]
    split
    · split
      · rename_i current
        rw [← size_forget current, ← ih (list.forget first)]
        rfl
      · exact ih list
    · rfl

theorem size_evictExpired (list : DeadNonceList) (now : Instant) :
    (list.evictExpired now).size + list.expiredCount now = list.size := by
  have older := size_evictFrom list.log list now
  unfold evictExpired expiredCount
  dsimp only
  split
  · generalize list.evictFrom now list.log = evicted at older ⊢
    have newer : ({ evicted with recent := [] }.evictFrom now evicted.recent.reverse).size +
        { evicted with recent := [] }.expiredFrom now evicted.recent.reverse = evicted.size :=
      size_evictFrom evicted.recent.reverse { evicted with recent := [] } now
    omega
  · exact older

/-- The nonces that are listed before and not after. -/
def gone (before after : DeadNonceList) : List RequestKey :=
  before.latest.keys.filter fun key => !after.latest.contains key

/-- What is listed before is gone or still listed after. -/
theorem length_gone
    (fewer : ∀ {key : RequestKey} {time : Instant}, after.latest[key]? = some time →
      before.latest[key]? = some time) :
    after.size + (gone before after).length = before.size := by
  have stays : (before.latest.keys.filter fun key => after.latest.contains key).Perm
      after.latest.keys := by
    refine (List.perm_ext_iff_of_nodup (Std.ExtTreeMap.nodup_keys.filter _)
      Std.ExtTreeMap.nodup_keys).mpr fun key => ?_
    rw [List.mem_filter, Std.ExtTreeMap.mem_keys, Std.ExtTreeMap.mem_keys,
      Std.ExtTreeMap.contains_iff_mem]
    refine and_iff_right_of_imp fun member => ?_
    rw [← Std.ExtTreeMap.isSome_getElem?_iff_mem] at member ⊢
    obtain ⟨time, found⟩ := Option.isSome_iff_exists.mp member
    rw [fewer found]
    rfl
  have split := List.length_eq_length_filter_add (l := before.latest.keys)
    fun key => after.latest.contains key
  rw [stays.length_eq, Std.ExtTreeMap.length_keys, Std.ExtTreeMap.length_keys] at split
  exact split.symm

/-- While there is room for all nonces within their lifetime, an eviction leaves just
those, and counts those that leave. -/
theorem retention_is_exact
    (timely : (calls ++ [Call.evict now]).Pairwise fun a b => a.time ≤ b.time)
    (fits : Fits lifetime capacity calls) :
    (∀ name nonce,
      (((empty lifetime capacity).afterCalls calls).evictExpired now).contains name nonce = true ↔
        ∃ time, lastNoted? calls (name, nonce) = some time ∧ now < time + lifetime) ∧
      (((empty lifetime capacity).afterCalls calls).evictExpired now).size =
        (unexpired lifetime calls now).length ∧
      ((empty lifetime capacity).afterCalls calls).expiredCount now =
        (gone ((empty lifetime capacity).afterCalls calls)
          (((empty lifetime capacity).afterCalls calls).evictExpired now)).length := by
  obtain ⟨timely', _, before⟩ := List.pairwise_append.mp timely
  have exact : Exact calls now ((empty lifetime capacity).afterCalls calls) :=
    exact_afterCalls timely' fits fun call member => before call member _ (List.mem_singleton_self _)
  have sameLifetime : ((empty lifetime capacity).afterCalls calls).lifetime = lifetime :=
    ((empty lifetime capacity).afterCalls_setup calls).1
  have size := size_evictExpired ((empty lifetime capacity).afterCalls calls) now
  have sheds := sheds_evictExpired ((empty lifetime capacity).afterCalls calls) now
  generalize (empty lifetime capacity).afterCalls calls = list at exact sameLifetime size sheds ⊢
  have known (key : RequestKey) : key ∈ (list.evictExpired now).latest ↔
      ∃ time, lastNoted? calls key = some time ∧ now < time + lifetime := by
    rw [← Std.ExtTreeMap.isSome_getElem?_iff_mem, Option.isSome_iff_exists, ← sameLifetime]
    exact exists_congr fun time => exact.getElem?_evictExpired
  refine ⟨fun name nonce => ?_, ?_, ?_⟩
  · rw [contains, Std.ExtTreeMap.contains_iff_mem]
    exact known (name, nonce)
  · rw [DeadNonceList.size, ← Std.ExtTreeMap.length_keys]
    refine List.Perm.length_eq ((List.perm_ext_iff_of_nodup Std.ExtTreeMap.nodup_keys ?_).mpr ?_)
    · exact (List.nodup_dedup _).filter _
    · intro key
      rw [Std.ExtTreeMap.mem_keys, known, mem_unexpired]
  · have left := length_gone (fun {_ _} found => sheds.listed found)
    omega

/-- Where there is room for two, a nonce is noted again, and then one more at the time when
its first note would have run out. -/
def renewing : List Call :=
  [.add ⟨[[97]]⟩ 1 .zero, .add ⟨[[97]]⟩ 2 .zero, .add ⟨[[97]]⟩ 1 (.ofMillis 80),
    .evict (.ofMillis 90), .add ⟨[[98]]⟩ 3 (.ofMillis 100)]

theorem retention_is_exact_when_renewed :
    Fits (.ofMillis 100) 2 renewing ∧
      (((empty (.ofMillis 100) 2).afterCalls renewing).evictExpired (.ofMillis 180)).contains
        ⟨[[97]]⟩ 1 = false ∧
      (((empty (.ofMillis 100) 2).afterCalls renewing).evictExpired (.ofMillis 180)).size = 1 ∧
      ((empty (.ofMillis 100) 2).afterCalls renewing).expiredCount (.ofMillis 180) = 1 := by
  have fits : Fits (.ofMillis 100) 2 renewing := by decide
  obtain ⟨listed, size, count⟩ :=
    @retention_is_exact (.ofMillis 100) 2 (.ofMillis 180) renewing (by decide) fits
  refine ⟨fits, ?_, size.trans (by decide), count.trans (by decide)⟩
  rw [Bool.eq_false_iff, Ne, listed]
  rintro ⟨time, last, young⟩
  have first : lastNoted? renewing (⟨[[97]]⟩, 1) = some (.ofMillis 80) := by decide
  rw [first] at last
  cases last
  exact absurd young (by decide)

end DeadNonceList

end NamedData
