import NamedData.Proofs.PendingTable

namespace NamedData

namespace Pit

/-- What is asked of the table. -/
inductive Call where
  | insert (name : Name)
  | erase (id : PitId)

/-- What is answered: the handle of a name, or whether there was such an entry. -/
inductive Answer where
  | handle (id : PitId)
  | erased (any : Bool)
  deriving DecidableEq

def call (pit : Pit) : Call → Answer × Pit
  | .insert name => (.handle (pit.insert name).1, (pit.insert name).2)
  | .erase id => (.erased (pit.get? id).isSome, pit.erase id)

def answers (pit : Pit) : List Call → List Answer
  | [] => []
  | first :: rest => (pit.call first).1 :: (pit.call first).2.answers rest

def afterCalls (pit : Pit) (calls : List Call) : Pit :=
  calls.foldl (fun pit call => (pit.call call).2) pit

end Pit

/-- The handles of the live entries as a plain list, in the order they were given, and how
many ever were. -/
structure Handles where
  live : List PitId
  given : Nat

namespace Handles

def empty : Handles := ⟨[], 0⟩

/-- The same calls, on a plain list. -/
def call (handles : Handles) : Pit.Call → Pit.Answer × Handles
  | .insert name =>
    match handles.live.find? (·.name = name) with
    | some id => (.handle id, handles)
    | none =>
      let id : PitId := ⟨handles.given + 1, name⟩
      (.handle id, ⟨handles.live ++ [id], handles.given + 1⟩)
  | .erase id =>
    (.erased (decide (id ∈ handles.live)), { handles with live := handles.live.filter (· ≠ id) })

def answers (handles : Handles) : List Pit.Call → List Pit.Answer
  | [] => []
  | first :: rest => (handles.call first).1 :: (handles.call first).2.answers rest

def afterCalls (handles : Handles) (calls : List Pit.Call) : Handles :=
  calls.foldl (fun handles call => (handles.call call).2) handles

end Handles

namespace Pit

variable {pit : Pit} {handles : Handles} {name : Name} {id : PitId}

/-- The entries are those of the handles that are listed as live. -/
structure Lists (pit : Pit) (handles : Handles) : Prop where
  filed : pit.Filed
  live : ∀ id, id ∈ handles.live ↔ ∃ entry, pit.get? id = some entry
  given : handles.given = pit.created

theorem lists_empty : Pit.empty.Lists Handles.empty where
  filed := filed_empty
  live id := by simp [Handles.empty, get?_empty]
  given := rfl

theorem Lists.decide_live (lists : pit.Lists handles) (id : PitId) :
    decide (id ∈ handles.live) = (pit.get? id).isSome := by
  rw [Bool.eq_iff_iff, decide_eq_true_iff, lists.live, Option.isSome_iff_exists]

/-- A name has a live handle just when the index leads to it. -/
theorem Lists.find?_live (lists : pit.Lists handles) (name : Name) :
    handles.live.find? (·.name = name) = pit.find? name := by
  cases atName : pit.find? name with
  | some id =>
    obtain ⟨named, live⟩ := lists.filed.indexed.mp atName
    cases search : handles.live.find? (·.name = name) with
    | none =>
      have nowhere := List.find?_eq_none.mp search id ((lists.live id).mpr live)
      exact absurd (decide_eq_true named) nowhere
    | some other =>
      have live' := (lists.live other).mp (List.mem_of_find?_eq_some search)
      have named' := List.find?_some search
      simp only [decide_eq_true_eq] at named'
      rw [← atName, lists.filed.indexed.mpr ⟨named', live'⟩]
  | none =>
    refine List.find?_eq_none.mpr fun id listed same => ?_
    rw [lists.filed.indexed.mpr ⟨of_decide_eq_true same, (lists.live id).mp listed⟩] at atName
    cases atName

theorem Lists.insert (lists : pit.Lists handles) (name : Name) :
    (handles.call (.insert name)).1 = (pit.call (.insert name)).1 ∧
      (pit.call (.insert name)).2.Lists (handles.call (.insert name)).2 := by
  have search := lists.find?_live name
  cases atName : pit.find? name with
  | some id =>
    rw [atName] at search
    simp only [Handles.call, call, search, insert_of_find? atName, true_and]
    exact lists
  | none =>
    rw [atName] at search
    have live := lists.filed.exists_get?_insert name
    have filed := lists.filed.insert name
    simp only [Handles.call, call, search]
    rw [lists.given]
    rw [insert_of_none atName] at live filed ⊢
    refine ⟨rfl, filed, fun id => ?_, rfl⟩
    rw [List.mem_append, List.mem_singleton, live, lists.live]
    exact or_comm

theorem Lists.erase (lists : pit.Lists handles) (id : PitId) :
    (handles.call (.erase id)).1 = (pit.call (.erase id)).1 ∧
      (pit.call (.erase id)).2.Lists (handles.call (.erase id)).2 := by
  simp only [Handles.call, call, lists.decide_live, true_and]
  refine ⟨lists.filed.erase id, fun other => ?_, ?_⟩
  · rw [List.mem_filter, lists.live, get?_erase, decide_eq_true_iff]
    by_cases gone : other = id
    · simp [gone]
    · rw [if_neg gone]
      exact and_iff_left gone
  · rw [created_erase]
    exact lists.given

theorem Lists.call (lists : pit.Lists handles) (call : Call) :
    (handles.call call).1 = (pit.call call).1 ∧ (pit.call call).2.Lists (handles.call call).2 := by
  cases call with
  | insert name => exact lists.insert name
  | erase id => exact lists.erase id

theorem Lists.afterCalls (lists : pit.Lists handles) (calls : List Call) :
    handles.answers calls = pit.answers calls ∧
      (pit.afterCalls calls).Lists (handles.afterCalls calls) := by
  induction calls generalizing pit handles with
  | nil => exact ⟨rfl, lists⟩
  | cons first rest ih =>
    obtain ⟨same, lists'⟩ := lists.call first
    obtain ⟨sameRest, lists''⟩ := ih lists'
    exact ⟨by rw [Handles.answers, answers, same, sameRest], lists''⟩

/-- What Data answers is found from the longest name to the shortest. -/
theorem Filed.pairwise_dataMatches (filed : pit.Filed) (dataName : Name) :
    (pit.dataMatches dataName).Pairwise fun a b => b.name.size < a.name.size := by
  rw [dataMatches, List.pairwise_filterMap]
  refine dataName.pairwise_prefixes.imp fun {longer shorter} less a foundA b foundB => ?_
  rwa [filed.name_of_find? foundA, filed.name_of_find? foundB]

/-- However entries come and go, Data finds just the live ones whose Interests it answers,
each once and from the longest name to the shortest. -/
theorem data_matches_are_live_prefixes (calls : List Call) (dataName : Name) :
    Pit.empty.answers calls = Handles.empty.answers calls ∧
      (∀ id, id ∈ (Pit.empty.afterCalls calls).dataMatches dataName ↔
        id ∈ (Handles.empty.afterCalls calls).live ∧ id.name.isPrefixOf dataName = true) ∧
      (∀ (interest : Interest) (data : Data) (id : PitId), interest.name = id.name →
        (id ∈ (Pit.empty.afterCalls calls).dataMatches data.name ↔
          id ∈ (Handles.empty.afterCalls calls).live ∧ interest.isAnsweredBy data = true)) ∧
      ((Pit.empty.afterCalls calls).dataMatches dataName).Nodup ∧
      ((Pit.empty.afterCalls calls).dataMatches dataName).Pairwise
        fun a b => b.name.size < a.name.size := by
  obtain ⟨same, lists⟩ := lists_empty.afterCalls calls
  have falling := lists.filed.pairwise_dataMatches dataName
  have found (dataName : Name) (id : PitId) :
      id ∈ (Pit.empty.afterCalls calls).dataMatches dataName ↔
        id ∈ (Handles.empty.afterCalls calls).live ∧ id.name.isPrefixOf dataName = true := by
    rw [lists.filed.mem_dataMatches, lists.live, and_comm]
  refine ⟨same.symm, found dataName, fun interest data id named => ?_, ?_, falling⟩
  · rw [found, Interest.isAnsweredBy, named]
  · refine falling.imp fun {a b} less equal => ?_
    rw [equal] at less
    exact Nat.lt_irrefl _ less

/-- A component without bytes counts like any other, and a name that is asked for again
after its entry was erased has a new handle. -/
example : (Pit.empty.afterCalls [.insert .root, .insert ⟨[[97]]⟩, .insert ⟨[[97], []]⟩,
    .insert ⟨[[97], [98]]⟩, .erase ⟨1, .root⟩, .insert .root]).dataMatches ⟨[[97], [], [98]]⟩ =
      [⟨3, ⟨[[97], []]⟩⟩, ⟨2, ⟨[[97]]⟩⟩, ⟨5, .root⟩] := by decide

end Pit

end NamedData
