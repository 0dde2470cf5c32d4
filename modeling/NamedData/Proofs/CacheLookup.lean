import Mathlib.Data.List.Induction
import NamedData.ContentStore
import NamedData.Proofs.NameSearch

namespace NamedData

/-- What is kept of Data that was taken in: all of its row but the number. -/
structure Kept where
  data : Data
  freshUntil : Option Instant
  unsolicited : Bool

def CachedData.kept (cached : CachedData) : Kept where
  data := cached.data
  freshUntil := cached.freshUntil
  unsolicited := cached.unsolicited

/-- Data is fresh for its period from when it was taken in. -/
theorem CachedData.isFresh_iff {cached : CachedData} {data : Data} {moment now : Instant}
    (limit : cached.freshUntil = data.freshness.map (moment + ·)) : cached.isFresh now = true ↔
      ∃ period, data.freshness = some period ∧ now < moment + period := by
  rw [isFresh, limit, Option.any_map, Option.any_eq_true]
  exact exists_congr fun period => and_congr_right fun _ => decide_eq_true_iff

/-- Data that is handed to a store at a moment. -/
structure Intake where
  data : Data
  unsolicited : Bool
  moment : Instant

def Intake.kept (intake : Intake) : Kept where
  data := intake.data
  freshUntil := intake.data.freshness.map (intake.moment + ·)
  unsolicited := intake.unsolicited

namespace ContentStore

variable {store : ContentStore} {interest : Interest} {data : Data} {unsolicited : Bool}
  {now : Instant} {name : Name} {cached : CachedData} {capacity : Nat} {intake : Intake}

theorem capacity_insert (unsolicited : Bool) :
    (store.insert data unsolicited now).capacity = store.capacity := by
  unfold insert
  split <;> rfl

/-- The row of Data that is taken in. -/
def newRow (store : ContentStore) (intake : Intake) : CachedData where
  data := intake.data
  freshUntil := intake.kept.freshUntil
  unsolicited := intake.unsolicited
  serial := store.insertions + 1

/-- The table of a store with room, once Data is in it and before a packet has to go. -/
def filled (store : ContentStore) (intake : Intake) : NameTable CachedData :=
  store.cached.insert intake.data.name (store.newRow intake)

theorem insert_eq (room : store.capacity ≠ 0) (intake : Intake) :
    store.insert intake.data intake.unsolicited intake.moment = { store with
      insertions := store.insertions + 1
      cached := if (store.filled intake).size ≤ store.capacity then store.filled intake
        else evictOne (store.filled intake) } :=
  if_neg room

theorem getElem?_filled (intake : Intake) (name : Name) :
    (store.filled intake)[name]? =
      if intake.data.name = name then some (store.newRow intake) else store.cached[name]? :=
  NameTable.getElem?_insert _ _ _ _

/-- Evicting takes one row away and adds none. -/
theorem getElem?_of_evictOne {table : NameTable CachedData}
    (found : (evictOne table)[name]? = some cached) : table[name]? = some cached := by
  unfold evictOne at found
  split at found
  · rw [NameTable.getElem?_erase] at found
    split at found
    · cases found
    · exact found
  · exact found

/-- What lies under a name in a store with room is what was taken in last, or lay there
before when that has another name. -/
theorem row_insert (intake : Intake) (room : store.capacity ≠ 0)
    (found : (store.insert intake.data intake.unsolicited intake.moment).cached[name]? = some cached) :
    (name = intake.data.name ∧ cached = store.newRow intake) ∨
      name ≠ intake.data.name ∧ store.cached[name]? = some cached := by
  have placed : (store.filled intake)[name]? = some cached := by
    rw [insert_eq room] at found
    dsimp only at found
    split at found
    · exact found
    · exact getElem?_of_evictOne found
  rw [getElem?_filled] at placed
  split at placed
  · rename_i same
    cases placed
    exact Or.inl ⟨same.symm, rfl⟩
  · rename_i different
    exact Or.inr ⟨Ne.symm different, placed⟩

/-- Taking Data in adds no other row than its own. -/
theorem new_or_old (intake : Intake)
    (found : (store.insert intake.data intake.unsolicited intake.moment).cached[name]? = some cached) :
    (name = intake.data.name ∧ cached = store.newRow intake) ∨ store.cached[name]? = some cached := by
  by_cases room : store.capacity = 0
  · rw [insert, if_pos room] at found
    exact Or.inr found
  · exact (row_insert intake room found).imp_right And.right

/-- Data is kept under its own name. -/
def Filed (store : ContentStore) : Prop :=
  ∀ (name : Name) (cached : CachedData), store.cached[name]? = some cached → cached.data.name = name

theorem Filed.insert (filed : store.Filed) (data : Data) (unsolicited : Bool) (now : Instant) :
    (store.insert data unsolicited now).Filed := by
  intro name cached found
  rcases new_or_old ⟨data, unsolicited, now⟩ found with ⟨rfl, rfl⟩ | old
  · rfl
  · exact filed _ _ old

/-- The test that a lookup puts to a row. -/
theorem passes_iff : (!interest.mustBeFresh || cached.isFresh now) = true ↔
    (interest.mustBeFresh = true → cached.isFresh now = true) := by
  cases interest.mustBeFresh <;> simp

/-- The cache answers with what lies under a name that extends the one asked for, and
only with fresh Data when that is asked for. -/
theorem row_of_find? (found : store.find? interest now = some data) :
    ∃ name cached, store.cached[name]? = some cached ∧ cached.data = data ∧
      interest.name.isPrefixOf name = true ∧
      (interest.mustBeFresh = true → cached.isFresh now = true) := by
  obtain ⟨cached, isRow, rfl⟩ := Option.map_eq_some_iff.mp found
  obtain ⟨name, here, under, passes, _⟩ := NameTable.findUnder?_eq_some_iff.mp isRow
  exact ⟨name, cached, here, rfl, under, passes_iff.mp passes⟩

/-- The cache answers an Interest with Data whose name extends the one asked for. -/
theorem Filed.under_find? (filed : store.Filed) (found : store.find? interest now = some data) :
    interest.name.isPrefixOf data.name = true := by
  obtain ⟨name, cached, here, rfl, under, _⟩ := row_of_find? found
  rw [filed _ _ here]
  exact under

/-- What is asked of a store. -/
inductive Call where
  | insert (intake : Intake)
  | find (interest : Interest) (now : Instant)
  | clear

/-- What a store answers: whether it takes the Data, or what it has found. -/
inductive Answer where
  | taken (accepted : Bool)
  | found (data : Option Data)
  | cleared
  deriving DecidableEq

def takeIn (store : ContentStore) (intake : Intake) : ContentStore :=
  store.insert intake.data intake.unsolicited intake.moment

def call (store : ContentStore) : Call → Answer × ContentStore
  | .insert intake => (.taken store.accepts, store.takeIn intake)
  | .find interest now => (.found (store.find? interest now), store)
  | .clear => (.cleared, store.clear)

def afterCalls (store : ContentStore) (calls : List Call) : ContentStore :=
  calls.foldl (fun store call => (store.call call).2) store

def Call.intake? : Call → Option Intake
  | .insert intake => some intake
  | _ => none

/-- The last Data of a name that was handed in. -/
def lastIntake? (calls : List Call) (name : Name) : Option Intake :=
  (calls.filterMap Call.intake?).reverse.find? fun intake => intake.data.name = name

variable {calls : List Call}

theorem afterCalls_append (earlier later : List Call) :
    store.afterCalls (earlier ++ later) = (store.afterCalls earlier).afterCalls later :=
  List.foldl_append

theorem capacity_call (call : Call) : (store.call call).2.capacity = store.capacity := by
  cases call with
  | insert intake => exact capacity_insert intake.unsolicited
  | _ => rfl

theorem capacity_afterCalls (calls : List Call) : (store.afterCalls calls).capacity = store.capacity := by
  induction calls generalizing store with
  | nil => rfl
  | cons first rest ih => exact (@ih (store.call first).2).trans (capacity_call first)

theorem lastIntake?_insert (calls : List Call) (intake : Intake) (name : Name) :
    lastIntake? (calls ++ [.insert intake]) name =
      if intake.data.name = name then some intake else lastIntake? calls name := by
  rw [lastIntake?, List.filterMap_append, List.reverse_append, List.find?_append]
  show (List.find? _ [intake]).or _ = _
  by_cases same : intake.data.name = name <;> simp [same, lastIntake?]

theorem lastIntake?_of_idle {call : Call} (idle : call.intake? = none) (calls : List Call)
    (name : Name) : lastIntake? (calls ++ [call]) name = lastIntake? calls name := by
  simp [lastIntake?, idle]

/-- What lies under a name in a store was handed in last of that name. -/
theorem exists_lastIntake (calls : List Call)
    (found : ((empty capacity).afterCalls calls).cached[name]? = some cached) :
    capacity ≠ 0 ∧ ∃ intake, lastIntake? calls name = some intake ∧ cached.kept = intake.kept := by
  induction calls using List.reverseRecOn generalizing name cached with
  | nil =>
    have nothing : (∅ : NameTable CachedData)[name]? = some cached := found
    simp at nothing
  | append_singleton calls call ih =>
    rw [afterCalls_append] at found
    cases call with
    | insert intake =>
      rw [lastIntake?_insert]
      have setup : ((empty capacity).afterCalls calls).capacity = capacity := capacity_afterCalls calls
      have placed : (((empty capacity).afterCalls calls).takeIn intake).cached[name]? = some cached :=
        found
      by_cases room : ((empty capacity).afterCalls calls).capacity = 0
      · rw [takeIn, ContentStore.insert, if_pos room] at placed
        exact absurd (setup.symm.trans room) (ih placed).1
      · rcases row_insert intake room placed with ⟨rfl, rfl⟩ | ⟨different, old⟩
        · exact ⟨setup ▸ room, intake, if_pos rfl, rfl⟩
        · rw [if_neg (Ne.symm different)]
          exact ih old
    | find =>
      rw [lastIntake?_of_idle rfl]
      exact ih found
    | clear =>
      have nothing : (∅ : NameTable CachedData)[name]? = some cached := found
      simp at nothing

/-- After some calls a store holds Data that answers an Interest. It was handed in last
of its name, that name extends the one asked for, and when fresh Data is asked for, its
freshness period runs from when it was handed in and is not over. -/
structure Qualifies (capacity : Nat) (calls : List Call) (interest : Interest) (now : Instant)
    (intake : Intake) : Prop where
  stored : intake.data.name ∈ ((empty capacity).afterCalls calls).cached
  last : lastIntake? calls intake.data.name = some intake
  under : interest.name.isPrefixOf intake.data.name = true
  fresh : interest.mustBeFresh = true →
    ∃ period, intake.data.freshness = some period ∧ now < intake.moment + period

theorem Qualifies.row (qualifies : Qualifies capacity calls interest now intake) :
    ∃ cached, ((empty capacity).afterCalls calls).cached[intake.data.name]? = some cached ∧
      (!interest.mustBeFresh || cached.isFresh now) = true ∧ cached.data = intake.data := by
  obtain ⟨cached, here⟩ := Option.isSome_iff_exists.mp
    (Std.ExtTreeMap.isSome_getElem?_iff_mem.mpr qualifies.stored)
  obtain ⟨_, last, isLast, same⟩ := exists_lastIntake calls here
  cases qualifies.last.symm.trans isLast
  have limit := congrArg Kept.freshUntil same
  exact ⟨cached, here,
    passes_iff.mpr fun wanted => (CachedData.isFresh_iff limit).mpr (qualifies.fresh wanted),
    congrArg Kept.data same⟩

theorem exists_qualifies
    (here : ((empty capacity).afterCalls calls).cached[name]? = some cached)
    (under : interest.name.isPrefixOf name = true)
    (passes : (!interest.mustBeFresh || cached.isFresh now) = true) :
    ∃ intake, Qualifies capacity calls interest now intake ∧ intake.data = cached.data ∧
      intake.data.name = name := by
  obtain ⟨_, intake, last, same⟩ := exists_lastIntake calls here
  have isData : cached.data = intake.data := congrArg Kept.data same
  have named : intake.data.name = name := by simpa using List.find?_some last
  subst named
  have limit := congrArg Kept.freshUntil same
  exact ⟨intake, ⟨Std.ExtTreeMap.mem_iff_isSome_getElem?.mpr (by rw [here]; rfl), last, under,
    fun wanted => (CachedData.isFresh_iff limit).mp (passes_iff.mp passes wanted)⟩, isData.symm, rfl⟩

/-- No two that qualify have one name. -/
theorem Qualifies.eq_of_name {other : Intake} (qualifies : Qualifies capacity calls interest now intake)
    (qualifies' : Qualifies capacity calls interest now other)
    (same : other.data.name = intake.data.name) : other = intake := by
  have last := qualifies'.last
  rw [same, qualifies.last] at last
  exact (Option.some.inj last).symm

theorem find?_eq_some_iff : ((empty capacity).afterCalls calls).find? interest now = some data ↔
    ∃ intake, Qualifies capacity calls interest now intake ∧ intake.data = data ∧
      ∀ other, Qualifies capacity calls interest now other →
        other = intake ∨ intake.data.name.Before other.data.name := by
  constructor
  · intro found
    obtain ⟨cached, isRow, rfl⟩ := Option.map_eq_some_iff.mp found
    obtain ⟨name, here, under, passes, least⟩ := NameTable.findUnder?_eq_some_iff.mp isRow
    obtain ⟨intake, qualifies, isData, rfl⟩ := exists_qualifies here under passes
    refine ⟨intake, qualifies, isData, fun other qualifies' => ?_⟩
    obtain ⟨cached', here', passes', _⟩ := qualifies'.row
    exact (least _ cached' here' qualifies'.under passes').imp_left (qualifies.eq_of_name qualifies')
  · rintro ⟨intake, qualifies, rfl, least⟩
    obtain ⟨cached, here, passes, isData⟩ := qualifies.row
    refine Option.map_eq_some_iff.mpr ⟨cached, NameTable.findUnder?_eq_some_iff.mpr
      ⟨_, here, qualifies.under, passes, fun other cached' here' under' passes' => ?_⟩, isData⟩
    obtain ⟨other, qualifies', _, rfl⟩ := exists_qualifies here' under' passes'
    exact (least other qualifies').imp_left fun same => by rw [same]

theorem find?_eq_none_iff : ((empty capacity).afterCalls calls).find? interest now = none ↔
    ∀ intake, ¬ Qualifies capacity calls interest now intake := by
  refine Option.map_eq_none_iff.trans (NameTable.findUnder?_eq_none_iff.trans ⟨?_, ?_⟩)
  · intro fails intake qualifies
    obtain ⟨cached, here, passes, _⟩ := qualifies.row
    exact Bool.eq_false_iff.mp (fails _ cached here qualifies.under) passes
  · intro nothing name cached here under
    refine Bool.eq_false_iff.mpr fun passes => ?_
    obtain ⟨intake, qualifies, _⟩ := exists_qualifies here under passes
    exact nothing intake qualifies

/-- A lookup finds, of the Data that qualifies, that of the least name, and nothing just
when there is none that does. A run goes on from it as if it had not been. -/
theorem lookup_is_exact (capacity : Nat) (calls : List Call) (interest : Interest) (now : Instant) :
    (∀ data, ((empty capacity).afterCalls calls).find? interest now = some data ↔
      ∃ intake, Qualifies capacity calls interest now intake ∧ intake.data = data ∧
        ∀ other, Qualifies capacity calls interest now other →
          other = intake ∨ intake.data.name.Before other.data.name) ∧
    (((empty capacity).afterCalls calls).find? interest now = none ↔
      ∀ intake, ¬ Qualifies capacity calls interest now intake) ∧
    ∀ later, (empty capacity).afterCalls (calls ++ .find interest now :: later) =
      (empty capacity).afterCalls (calls ++ later) := by
  refine ⟨fun data => find?_eq_some_iff, find?_eq_none_iff, fun later => ?_⟩
  rw [afterCalls_append, afterCalls_append]
  rfl

end ContentStore

end NamedData
