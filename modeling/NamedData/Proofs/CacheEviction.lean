import Mathlib.Data.List.Nodup
import NamedData.Proofs.CacheLookup

namespace NamedData

namespace CachedData

variable {a b c : CachedData}

theorem leavesBefore_iff : a.leavesBefore b = true ↔
    (a.unsolicited = true ∧ b.unsolicited = false) ∨
      a.unsolicited = b.unsolicited ∧ a.serial < b.serial := by
  unfold leavesBefore
  cases a.unsolicited <;> cases b.unsolicited <;> simp

theorem leavesBefore_self (a : CachedData) : a.leavesBefore a = false := by
  rw [leavesBefore, beq_self_eq_true, if_pos rfl]
  exact decide_eq_false (Nat.lt_irrefl _)

theorem leavesBefore_asymm (before : a.leavesBefore b = true) : b.leavesBefore a = false := by
  rw [← Bool.not_eq_true, leavesBefore_iff]
  rw [leavesBefore_iff] at before
  rintro (⟨loose, tight⟩ | ⟨same, younger⟩) <;> rcases before with ⟨loose', tight'⟩ | ⟨same', older⟩
  · rw [loose] at tight'
    cases tight'
  · rw [loose, tight] at same'
    cases same'
  · rw [loose', tight'] at same
    cases same
  · omega

/-- What leaves before another leaves before a third as well, or the third before it. -/
theorem leavesBefore_or (before : a.leavesBefore c = true) :
    a.leavesBefore b = true ∨ b.leavesBefore c = true := by
  rw [leavesBefore_iff] at before
  rw [leavesBefore_iff, leavesBefore_iff]
  rcases before with ⟨loose, tight⟩ | ⟨same, older⟩
  · cases asked : b.unsolicited with
    | false => exact Or.inl (Or.inl ⟨loose, rfl⟩)
    | true => exact Or.inr (Or.inl ⟨rfl, tight⟩)
  · rw [← same]
    rcases Nat.lt_or_ge a.serial b.serial with older' | younger <;>
      cases a.unsolicited <;> cases b.unsolicited <;> simp <;> omega

/-- An older row stays only where it was asked for and the younger was not. -/
theorem asked_of_older (older : a.serial < b.serial) (stays : a.leavesBefore b = false) :
    a.unsolicited = false ∧ b.unsolicited = true := by
  rw [← Bool.not_eq_true, leavesBefore_iff] at stays
  cases loose : a.unsolicited <;> cases loose' : b.unsolicited
  · exact absurd (Or.inr ⟨loose.trans loose'.symm, older⟩) stays
  · exact ⟨rfl, rfl⟩
  · exact absurd (Or.inl ⟨loose, loose'⟩) stays
  · exact absurd (Or.inr ⟨loose.trans loose'.symm, older⟩) stays

end CachedData

namespace ContentStore

variable {store : ContentStore} {table : NameTable CachedData} {rows front rear : List CachedData}
  {row new : CachedData} {name : Name} {capacity : Nat} {calls : List Call} {intake : Intake}
  {queue : List Kept}

/-- Of two rows the one that is kept in mind leaves before the other. -/
theorem exists_sooner (first next : Name × CachedData) : ∃ found,
    sooner (some first) next.1 next.2 = some found ∧ (found = first ∨ found = next) ∧
      first.2.leavesBefore found.2 = false ∧ next.2.leavesBefore found.2 = false := by
  rw [sooner, Option.all_some]
  cases earlier : next.2.leavesBefore first.2 with
  | true =>
    exact ⟨next, if_pos rfl, Or.inr rfl, CachedData.leavesBefore_asymm earlier,
      next.2.leavesBefore_self⟩
  | false => exact ⟨first, if_neg (by decide), Or.inl rfl, first.2.leavesBefore_self, earlier⟩

/-- Going through rows, the one that is kept in mind leaves before all others. -/
theorem foldl_sooner (first : Name × CachedData) (rows : List (Name × CachedData)) :
    ∃ row ∈ first :: rows,
      rows.foldl (fun found row => sooner found row.1 row.2) (some first) = some row ∧
      ∀ other ∈ first :: rows, other.2.leavesBefore row.2 = false := by
  induction rows generalizing first with
  | nil =>
    refine ⟨first, List.mem_cons_self, rfl, fun other member => ?_⟩
    rw [List.mem_singleton.mp member]
    exact first.2.leavesBefore_self
  | cons next rest ih =>
    obtain ⟨found, isFound, origin, firstStays, nextStays⟩ := exists_sooner first next
    obtain ⟨row, member, isRow, last⟩ := ih found
    -- What does not leave before the one in mind does not leave before the last either.
    have stays {other : Name × CachedData} (still : other.2.leavesBefore found.2 = false) :
        other.2.leavesBefore row.2 = false := by
      refine Bool.eq_false_iff.mpr fun before => ?_
      rcases CachedData.leavesBefore_or (b := found.2) before with before | before
      · rw [still] at before
        cases before
      · rw [last found List.mem_cons_self] at before
        cases before
    refine ⟨row, ?_, by rw [List.foldl_cons, isFound, isRow], fun other isOther => ?_⟩
    · rcases List.mem_cons.mp member with rfl | later
      · rcases origin with rfl | rfl
        · exact List.mem_cons_self
        · exact List.mem_cons_of_mem _ List.mem_cons_self
      · exact List.mem_cons_of_mem _ (List.mem_cons_of_mem _ later)
    · rcases List.mem_cons.mp isOther with rfl | later
      · exact stays firstStays
      · rcases List.mem_cons.mp later with rfl | later
        · exact stays nextStays
        · exact last other (List.mem_cons_of_mem _ later)

/-- Rows are all those of a table in the order of their numbers, and each lies under the
name of its Data. -/
structure Lists (rows : List CachedData) (table : NameTable CachedData) : Prop where
  ascending : rows.Pairwise fun a b => a.serial < b.serial
  atName : ∀ name cached, table[name]? = some cached ↔ cached ∈ rows ∧ cached.data.name = name

theorem lists_empty : Lists [] ∅ where
  ascending := .nil
  atName name cached := by simp

theorem Lists.apart (lists : Lists rows table) :
    rows.Pairwise fun a b => a.data.name ≠ b.data.name := by
  refine lists.ascending.imp_of_mem fun {a b} isRow isRow' older same => ?_
  have here := (lists.atName _ a).mpr ⟨isRow, rfl⟩
  cases here.symm.trans ((lists.atName _ b).mpr ⟨isRow', same.symm⟩)
  exact Nat.lt_irrefl _ older

theorem Lists.name_ne (lists : Lists rows table) (unknown : table[name]? = none) (isRow : row ∈ rows) :
    row.data.name ≠ name := by
  intro same
  rw [(lists.atName name row).mpr ⟨isRow, same⟩] at unknown
  cases unknown

/-- A table has a row for each that is listed, and no other. -/
theorem Lists.perm (lists : Lists rows table) :
    (rows.map fun row => (row.data.name, row)).Perm table.toList := by
  refine (List.perm_ext_iff_of_nodup ?_ ?_).mpr fun row => ?_
  · refine List.pairwise_map.mpr (lists.apart.imp fun different same => different ?_)
    exact congrArg Prod.fst same
  · refine table.ordered_toList.imp fun {a b} before same => ?_
    rw [same, Std.ReflOrd.compare_self] at before
    cases before
  · obtain ⟨name, cached⟩ := row
    rw [Std.ExtTreeMap.mem_toList_iff_getElem?_eq_some, lists.atName, List.mem_map]
    constructor
    · rintro ⟨_, isRow, same⟩
      cases same
      exact ⟨isRow, rfl⟩
    · rintro ⟨isRow, rfl⟩
      exact ⟨cached, isRow, rfl⟩

theorem Lists.size (lists : Lists rows table) : table.size = rows.length := by
  rw [← Std.ExtTreeMap.length_toList, ← lists.perm.length_eq, List.length_map]

/-- The rows of a store, the oldest first. -/
def inOrder (store : ContentStore) : List CachedData :=
  (store.cached.toList.map (·.2)).mergeSort fun a b => a.serial ≤ b.serial

theorem Lists.inOrder (lists : Lists rows store.cached) : store.inOrder = rows := by
  have sorted : store.inOrder.Pairwise fun a b => decide (a.serial ≤ b.serial) = true := by
    refine List.pairwise_mergeSort (fun a b c => ?_) (fun a b => ?_) _
    · simp only [decide_eq_true_eq]
      exact Nat.le_trans
    · simp only [Bool.or_eq_true, decide_eq_true_eq]
      exact Nat.le_total a.serial b.serial
  have perm : store.inOrder.Perm rows := by
    refine (List.mergeSort_perm _ _).trans ((lists.perm.map (·.2)).symm.trans (.of_eq ?_))
    rw [List.map_map]
    exact List.map_id _
  refine perm.eq_of_pairwise (fun a b isRow isRow' le ge => ?_) sorted
    (lists.ascending.imp fun older => decide_eq_true (Nat.le_of_lt older))
  have distinct : (rows.map (·.serial)).Nodup := List.pairwise_map.mpr (lists.ascending.imp Nat.ne_of_lt)
  refine List.inj_on_of_nodup_map distinct (perm.subset isRow) isRow' ?_
  exact Nat.le_antisymm (of_decide_eq_true le) (of_decide_eq_true ge)

/-- Rows with a new one at the end, which takes the place of one of its name. -/
def placeLast (rows : List CachedData) (new : CachedData) : List CachedData :=
  rows.filter (·.data.name != new.data.name) ++ [new]

theorem mem_placeLast : row ∈ placeLast rows new ↔
    (row ∈ rows ∧ row.data.name ≠ new.data.name) ∨ row = new := by
  rw [placeLast, List.mem_append, List.mem_filter, List.mem_singleton, bne_iff_ne]

theorem Lists.insert (lists : Lists rows table) (young : ∀ row ∈ rows, row.serial < new.serial) :
    Lists (placeLast rows new) (table.insert new.data.name new) where
  ascending := by
    unfold placeLast
    rw [List.pairwise_append]
    refine ⟨lists.ascending.filter _, List.pairwise_singleton _ _, fun row isRow other isNew => ?_⟩
    rw [List.mem_singleton.mp isNew]
    exact young row (List.mem_filter.mp isRow).1
  atName name cached := by
    rw [NameTable.getElem?_insert, mem_placeLast]
    split
    · rename_i same
      subst same
      constructor
      · intro isNew
        cases isNew
        exact ⟨Or.inr rfl, rfl⟩
      · rintro ⟨⟨_, different⟩ | rfl, same⟩
        · exact absurd same different
        · rfl
    · rename_i different
      rw [lists.atName]
      constructor
      · rintro ⟨isRow, rfl⟩
        exact ⟨Or.inl ⟨isRow, Ne.symm different⟩, rfl⟩
      · rintro ⟨⟨isRow, _⟩ | rfl, rfl⟩
        · exact ⟨isRow, rfl⟩
        · exact absurd rfl different

theorem Lists.erase (lists : Lists (front ++ row :: rear) table) :
    Lists (front ++ rear) (table.erase row.data.name) where
  ascending := lists.ascending.sublist (List.Sublist.append_left (List.sublist_cons_self _ _) _)
  atName name cached := by
    have apart := List.pairwise_middle (fun {_ _} => Ne.symm) |>.mp lists.apart
    rw [List.pairwise_cons] at apart
    rw [NameTable.getElem?_erase]
    split
    · rename_i same
      subst same
      refine iff_of_false nofun ?_
      rintro ⟨isRow, same⟩
      exact apart.1 cached isRow same.symm
    · rename_i different
      rw [lists.atName, List.mem_append, List.mem_cons, List.mem_append]
      refine and_congr_left ?_
      rintro rfl
      rw [or_left_comm]
      refine or_iff_right ?_
      rintro rfl
      exact different rfl

/-- Evicting takes out of a list the row that leaves before all others. -/
theorem Lists.exists_evicted (lists : Lists rows table) (filled : rows ≠ []) :
    ∃ front row rear, rows = front ++ row :: rear ∧
      evictOne table = table.erase row.data.name ∧ ∀ other ∈ rows, other.leavesBefore row = false := by
  have listed {row : Name × CachedData} : row ∈ table.toList ↔ row.2 ∈ rows ∧ row.2.data.name = row.1 := by
    rw [Std.ExtTreeMap.mem_toList_iff_getElem?_eq_some, lists.atName]
  obtain ⟨row, member, found, last⟩ : ∃ row ∈ table.toList, victim? table = some row ∧
      ∀ other ∈ table.toList, other.2.leavesBefore row.2 = false := by
    rw [victim?, Std.ExtTreeMap.foldl_eq_foldl_toList]
    cases split : table.toList with
    | nil =>
      refine absurd lists.perm.length_eq ?_
      rw [split, List.length_map]
      exact fun empty => filled (List.length_eq_zero_iff.mp empty)
    | cons first rest => exact foldl_sooner first rest
  obtain ⟨isRow, named⟩ := listed.mp member
  obtain ⟨front, rear, rfl⟩ := List.append_of_mem isRow
  refine ⟨front, row.2, rear, rfl, ?_, fun other isOther => ?_⟩
  · rw [evictOne, found, named]
  · exact last (other.data.name, other) (listed.mpr ⟨isOther, rfl⟩)

/-- A queue gives up one place: that of the first packet that nobody asked for, or of the
first of all when somebody asked for each. -/
def dropOne (queue : List Kept) : List Kept :=
  if queue.any (·.unsolicited) then queue.eraseP (·.unsolicited) else queue.tail

/-- A queue with some number of places, the oldest packet first, takes one more in. If
there is one of its name, it takes that one's place away and goes to the end. Otherwise,
if all places are taken, one packet goes, which may be the new one. -/
def enqueue (capacity : Nat) (queue : List Kept) (new : Kept) : List Kept :=
  if queue.any (·.data.name == new.data.name) then
    queue.filter (·.data.name != new.data.name) ++ [new]
  else if queue.length < capacity then queue ++ [new]
  else dropOne (queue ++ [new])

def queueAfter (capacity : Nat) (queue : List Kept) : Call → List Kept
  | .insert intake => enqueue capacity queue intake.kept
  | .find _ _ => queue
  | .clear => []

/-- What a queue holds after some calls. -/
def held (capacity : Nat) (calls : List Call) : List Kept := calls.foldl (queueAfter capacity) []

/-- A queue drops what no other packet leaves before. -/
theorem dropOne_eq {front rear : List Kept} {gone : Kept}
    (first : (gone.unsolicited = true ∧ ∀ kept ∈ front, kept.unsolicited = false) ∨
      front = [] ∧ ∀ kept ∈ gone :: rear, kept.unsolicited = false) :
    dropOne (front ++ gone :: rear) = front ++ rear := by
  rcases first with ⟨loose, asked⟩ | ⟨rfl, asked⟩
  · have any : (front ++ gone :: rear).any (·.unsolicited) = true :=
      List.any_eq_true.mpr ⟨gone, List.mem_append_right _ List.mem_cons_self, loose⟩
    rw [dropOne, if_pos any, List.eraseP_append_right _ fun kept member => by simp [asked kept member],
      List.eraseP_cons_of_pos loose]
  · have tight : (gone :: rear).any (·.unsolicited) = false :=
      List.any_eq_false.mpr fun kept member => by simp [asked kept member]
    rw [List.nil_append, dropOne, tight]
    rfl

/-- The row that leaves before all others is the first that nobody asked for, or the
first of all when somebody asked for each. -/
theorem Lists.first_of_last (lists : Lists (front ++ row :: rear) table)
    (last : ∀ other ∈ front ++ row :: rear, other.leavesBefore row = false) :
    (row.unsolicited = true ∧ ∀ other ∈ front, other.unsolicited = false) ∨
      front = [] ∧ ∀ other ∈ row :: rear, other.unsolicited = false := by
  have asked {other : CachedData} (isOther : other ∈ front) :
      other.unsolicited = false ∧ row.unsolicited = true :=
    CachedData.asked_of_older
      ((List.pairwise_append.mp lists.ascending).2.2 other isOther row List.mem_cons_self)
      (last other (List.mem_append_left _ isOther))
  cases loose : row.unsolicited with
  | true => exact Or.inl ⟨rfl, fun other isOther => (asked isOther).1⟩
  | false =>
    refine Or.inr ⟨List.eq_nil_iff_forall_not_mem.mpr fun other isOther => ?_,
      fun other isOther => Bool.eq_false_iff.mpr fun loose' => ?_⟩
    · rw [(asked isOther).2] at loose
      cases loose
    · have before := CachedData.leavesBefore_iff.mpr (Or.inl ⟨loose', loose⟩)
      rw [last other (List.mem_append_right _ isOther)] at before
      cases before

theorem Lists.evictOne (lists : Lists rows table) (filled : rows ≠ []) :
    ∃ rest, Lists rest (evictOne table) ∧ rest ⊆ rows ∧ rest.length + 1 = rows.length ∧
      rest.map CachedData.kept = dropOne (rows.map CachedData.kept) := by
  obtain ⟨front, row, rear, rfl, evicted, last⟩ := lists.exists_evicted filled
  refine ⟨front ++ rear, evicted ▸ lists.erase, ?_, ?_, ?_⟩
  · exact (List.Sublist.append_left (List.sublist_cons_self _ _) _).subset
  · rw [List.length_append, List.length_append, List.length_cons]
    rfl
  · rw [List.map_append, List.map_append, List.map_cons]
    refine (dropOne_eq ?_).symm
    rw [← List.map_cons, List.forall_mem_map, List.forall_mem_map, List.map_eq_nil_iff]
    exact lists.first_of_last last

/-- Rows are those of a store, as many as it has room for at most, and none is younger
than its last insertion. Without their numbers they are a queue. -/
structure Keeps (rows : List CachedData) (queue : List Kept) (store : ContentStore) : Prop where
  lists : Lists rows store.cached
  past : ∀ row ∈ rows, row.serial ≤ store.insertions
  queued : rows.map CachedData.kept = queue
  within : rows.length ≤ store.capacity

theorem Keeps.lists_filled (keeps : Keeps rows queue store) (intake : Intake) :
    Lists (placeLast rows (store.newRow intake)) (store.filled intake) :=
  keeps.lists.insert fun row isRow => Nat.lt_succ_of_le (keeps.past row isRow)

theorem Keeps.past_filled (keeps : Keeps rows queue store) (intake : Intake) :
    ∀ row ∈ placeLast rows (store.newRow intake), row.serial ≤ store.insertions + 1 := by
  intro row isRow
  rcases mem_placeLast.mp isRow with ⟨old, _⟩ | rfl
  · exact Nat.le_succ_of_le (keeps.past row old)
  · exact Nat.le_refl _

theorem length_placeLast_le (rows : List CachedData) (new : CachedData) :
    (placeLast rows new).length ≤ rows.length + 1 := by
  rw [placeLast, List.length_append]
  exact Nat.succ_le_succ (List.length_filter_le _ _)

/-- A queue drops a packet just when the rows are too many with the new one. -/
theorem enqueue_map (within : rows.length ≤ capacity) (new : CachedData) :
    enqueue capacity (rows.map CachedData.kept) new.kept =
      if (placeLast rows new).length ≤ capacity then (placeLast rows new).map CachedData.kept
      else dropOne ((placeLast rows new).map CachedData.kept) := by
  rw [enqueue, placeLast, List.any_map, List.filter_map, List.map_append, List.length_map,
    List.length_append]
  cases present : rows.any ((·.data.name == new.kept.data.name) ∘ CachedData.kept) with
  | true =>
    obtain ⟨row, isRow, same⟩ := List.any_eq_true.mp present
    have fewer : (rows.filter (·.data.name != new.data.name)).length < rows.length := by
      refine List.length_filter_lt_length_iff_exists.mpr ⟨row, isRow, ?_⟩
      rw [bne, show (row.data.name == new.data.name) = true from same]
      decide
    have fits : (rows.filter (·.data.name != new.data.name)).length + [new].length ≤ capacity :=
      Nat.le_trans fewer within
    rw [if_pos rfl, if_pos fits]
    rfl
  | false =>
    have others : rows.filter (·.data.name != new.data.name) = rows :=
      List.filter_eq_self.mpr fun row isRow => by
        simpa [CachedData.kept] using List.any_eq_false.mp present row isRow
    rw [if_neg (by decide), others]
    rfl

theorem Keeps.empty (keeps : Keeps rows queue store) (noRoom : store.capacity = 0) : rows = [] :=
  List.length_eq_zero_iff.mp (Nat.le_zero.mp (noRoom ▸ keeps.within))

theorem enqueue_nowhere (new : Kept) : enqueue 0 [] new = [] := by
  cases loose : new.unsolicited <;> simp [enqueue, dropOne, loose]

/-- A store takes Data in as a queue does. -/
theorem Keeps.insert (keeps : Keeps rows queue store) (intake : Intake) :
    ∃ rows', Keeps rows' (enqueue store.capacity queue intake.kept) (store.takeIn intake) := by
  by_cases room : store.capacity = 0
  · obtain rfl := keeps.empty room
    refine ⟨[], ?_⟩
    rw [takeIn, ContentStore.insert, if_pos room, ← keeps.queued, room]
    exact ⟨keeps.lists, fun _ member => absurd member List.not_mem_nil, (enqueue_nowhere _).symm,
      Nat.zero_le _⟩
  · have filled := keeps.lists_filled intake
    have past := keeps.past_filled intake
    have queued := enqueue_map keeps.within (store.newRow intake)
    rw [keeps.queued] at queued
    rw [takeIn, insert_eq room, filled.size]
    split at queued
    · rename_i fits
      rw [if_pos fits]
      exact ⟨_, filled, past, queued.symm, fits⟩
    · rename_i full
      rw [if_neg full]
      obtain ⟨rest, lists, fewer, length, kept⟩ :=
        filled.evictOne (List.append_ne_nil_of_right_ne_nil _ (List.cons_ne_nil _ _))
      have bound := length_placeLast_le rows (store.newRow intake)
      have within := keeps.within
      exact ⟨rest, lists, fun row isRow => past row (fewer isRow), kept.trans queued.symm,
        show rest.length ≤ store.capacity by omega⟩

theorem keeps_afterCalls (capacity : Nat) (calls : List Call) :
    ∃ rows, Keeps rows (held capacity calls) ((empty capacity).afterCalls calls) := by
  induction calls using List.reverseRecOn with
  | nil => exact ⟨[], lists_empty, nofun, rfl, Nat.zero_le _⟩
  | append_singleton calls call ih =>
    obtain ⟨rows, keeps⟩ := ih
    have setup : ((empty capacity).afterCalls calls).capacity = capacity := capacity_afterCalls calls
    rw [afterCalls_append, held, List.foldl_append]
    cases call with
    | insert intake =>
      obtain ⟨rows', keeps'⟩ := keeps.insert intake
      rw [setup] at keeps'
      exact ⟨rows', keeps'⟩
    | find => exact ⟨rows, keeps⟩
    | clear => exact ⟨[], lists_empty, nofun, rfl, Nat.zero_le _⟩

/-- A store keeps what a queue holds: its rows in the order of their numbers are the
packets of the queue, each is found under its name, and no two have one name. -/
structure Follows (store : ContentStore) (queue : List Kept) : Prop where
  inOrder : store.inOrder.map CachedData.kept = queue
  ascending : store.inOrder.Pairwise fun a b => a.serial < b.serial
  atName : ∀ name cached, store.cached[name]? = some cached ↔
    cached ∈ store.inOrder ∧ cached.data.name = name
  apart : queue.Pairwise fun a b => a.data.name ≠ b.data.name
  size : store.size = queue.length

theorem Keeps.follows (keeps : Keeps rows queue store) : Follows store queue := by
  obtain ⟨lists, _, rfl, _⟩ := keeps
  have same := lists.inOrder
  rw [← same] at lists
  refine ⟨by rw [same], lists.ascending, lists.atName, ?_, ?_⟩
  · rw [← same]
    exact List.pairwise_map.mpr lists.apart
  · rw [List.length_map, ← same]
    exact lists.size

/-- However a store is used, it keeps what a queue of bounded length holds: Data of a
name that is there becomes the newest of it and pushes nothing out, and other Data pushes
out, once all places are taken, the oldest that nobody asked for, or the oldest of all. -/
theorem eviction_follows_the_queue (capacity : Nat) (calls : List Call) :
    Follows ((empty capacity).afterCalls calls) (held capacity calls) ∧
      ((empty capacity).afterCalls calls).size ≤ capacity := by
  obtain ⟨rows, keeps⟩ := keeps_afterCalls capacity calls
  refine ⟨keeps.follows, ?_⟩
  have setup : ((empty capacity).afterCalls calls).capacity = capacity := capacity_afterCalls calls
  rw [size, keeps.lists.size]
  exact setup ▸ keeps.within

theorem Keeps.nothing (keeps : Keeps rows queue store) (noRoom : store.capacity = 0) (name : Name) :
    store.cached[name]? = none := by
  obtain rfl := keeps.empty noRoom
  refine Option.eq_none_iff_forall_ne_some.mpr fun cached found => ?_
  cases ((keeps.lists.atName name cached).mp found).1

/-- Whether Data lies in a store. -/
def has (store : ContentStore) (data : Data) : Bool := store.cached[data.name]?.any (·.data == data)

/-- Data that nobody asked for comes to a full store that has none of its name, and of
which each packet was asked for: what has to go is the Data itself. -/
structure PushedOut (store : ContentStore) (intake : Intake) : Prop where
  room : store.capacity ≠ 0
  loose : intake.unsolicited = true
  unknown : store.cached[intake.data.name]? = none
  full : store.capacity ≤ store.size
  asked : ∀ (name : Name) (cached : CachedData),
    store.cached[name]? = some cached → cached.unsolicited = false

theorem size_filled (intake : Intake) : (store.filled intake).size =
    if store.cached[intake.data.name]? = none then store.size + 1 else store.size := by
  rw [filled, Std.ExtTreeMap.size_insert, ← Std.ExtTreeMap.isSome_getElem?_eq_contains]
  cases store.cached[intake.data.name]? <;> rfl

/-- A store that is too full with the new Data had none of its name, and drops a row that
no other leaves before. -/
theorem Keeps.exists_dropped (keeps : Keeps rows queue store) (room : store.capacity ≠ 0)
    (full : ¬ (store.filled intake).size ≤ store.capacity) :
    store.cached[intake.data.name]? = none ∧ store.capacity ≤ rows.length ∧
      ∃ row, (store.takeIn intake).cached = (store.filled intake).erase row.data.name ∧
        (row ∈ rows ∨ row = store.newRow intake) ∧
        (store.newRow intake).leavesBefore row = false ∧
        ∀ other ∈ rows, other.leavesBefore row = false := by
  have within := keeps.within
  have size : store.size = rows.length := keeps.lists.size
  have length : (store.filled intake).size = _ := size_filled intake
  split at length
  · rename_i unknown
    have others {row : CachedData} (isRow : row ∈ rows) : row.data.name ≠ intake.data.name :=
      keeps.lists.name_ne unknown isRow
    obtain ⟨_, row, _, split, evicted, last⟩ := (keeps.lists_filled intake).exists_evicted
      (List.append_ne_nil_of_right_ne_nil _ (List.cons_ne_nil _ _))
    have member : row ∈ placeLast rows (store.newRow intake) := by
      rw [split]
      exact List.mem_append_right _ List.mem_cons_self
    refine ⟨unknown, by omega, row, ?_, (mem_placeLast.mp member).imp_left And.left,
      last _ (mem_placeLast.mpr (Or.inr rfl)),
      fun other isOther => last other (mem_placeLast.mpr (Or.inl ⟨isOther, others isOther⟩))⟩
    rw [takeIn, insert_eq room, if_neg full, evicted]
  · omega

/-- Data that is pushed out changes no row. -/
theorem Keeps.pushed_out (keeps : Keeps rows queue store) (pushed : PushedOut store intake) :
    (store.takeIn intake).cached = store.cached := by
  have full : ¬ (store.filled intake).size ≤ store.capacity := by
    rw [size_filled, if_pos pushed.unknown]
    exact Nat.not_le_of_lt (Nat.lt_succ_of_le pushed.full)
  obtain ⟨_, _, row, dropped, old | rfl, last, _⟩ := keeps.exists_dropped pushed.room full
  · -- The new row would leave before one that was asked for.
    have asked := pushed.asked _ row ((keeps.lists.atName _ row).mpr ⟨old, rfl⟩)
    rw [CachedData.leavesBefore_iff.mpr (Or.inl ⟨pushed.loose, asked⟩)] at last
    cases last
  · rw [dropped]
    refine Std.ExtTreeMap.ext_getElem? fun name => ?_
    rw [NameTable.getElem?_erase, getElem?_filled]
    split
    · rename_i same
      rw [← same]
      exact pushed.unknown.symm
    · rename_i different
      exact if_neg different

/-- Data that a store takes and that is not pushed out stays. -/
theorem Keeps.stays (keeps : Keeps rows queue store) (room : store.capacity ≠ 0)
    (stays : ¬ PushedOut store intake) :
    (store.takeIn intake).cached[intake.data.name]? = some (store.newRow intake) := by
  by_cases full : (store.filled intake).size ≤ store.capacity
  · rw [takeIn, insert_eq room, if_pos full]
    exact (getElem?_filled intake _).trans (if_pos rfl)
  · obtain ⟨unknown, crowd, row, dropped, old | rfl, _, last⟩ := keeps.exists_dropped room full
    · have different : row.data.name ≠ intake.data.name := keeps.lists.name_ne unknown old
      rw [dropped, NameTable.getElem?_erase, if_neg different, getElem?_filled, if_pos rfl]
    · -- Every other row is older, so it was asked for and the new one was not.
      have differs {other : CachedData} (isOther : other ∈ rows) :
          other.unsolicited = false ∧ intake.unsolicited = true :=
        CachedData.asked_of_older (Nat.lt_succ_of_le (keeps.past other isOther)) (last other isOther)
      refine absurd ⟨room, ?_, unknown, ?_, fun name cached found => ?_⟩ stays
      · obtain ⟨other, isOther⟩ := List.exists_mem_of_length_pos
          (Nat.lt_of_lt_of_le (Nat.pos_of_ne_zero room) crowd)
        exact (differs isOther).2
      · exact Nat.le_trans crowd (Nat.le_of_eq keeps.lists.size.symm)
      · exact (differs ((keeps.lists.atName _ cached).mp found).1).1

/-- A store tells whether it keeps Data, except where it pushes the Data out at once: it
claims to have taken that. -/
theorem insert_tells_what_is_kept_unless_pushed_out (capacity : Nat) (calls : List Call)
    (intake : Intake) :
    (¬ PushedOut ((empty capacity).afterCalls calls) intake →
      (((empty capacity).afterCalls calls).call (.insert intake)).1 =
        .taken ((((empty capacity).afterCalls calls).call (.insert intake)).2.has intake.data)) ∧
    (PushedOut ((empty capacity).afterCalls calls) intake →
      (((empty capacity).afterCalls calls).call (.insert intake)).1 = .taken true ∧
        (((empty capacity).afterCalls calls).call (.insert intake)).2.has intake.data = false ∧
        (((empty capacity).afterCalls calls).call (.insert intake)).2.cached =
          ((empty capacity).afterCalls calls).cached) := by
  obtain ⟨rows, keeps⟩ := keeps_afterCalls capacity calls
  generalize (empty capacity).afterCalls calls = store at keeps ⊢
  have accepts : store.accepts = true ↔ store.capacity ≠ 0 := bne_iff_ne
  refine ⟨fun stays => ?_, fun pushed => ⟨?_, ?_, keeps.pushed_out pushed⟩⟩
  · by_cases room : store.capacity = 0
    · have refuses : store.accepts = false := Bool.eq_false_iff.mpr fun takes => accepts.mp takes room
      have still : store.takeIn intake = store := if_pos room
      show Answer.taken store.accepts = .taken ((store.takeIn intake).has intake.data)
      rw [refuses, still, has, keeps.nothing room]
      rfl
    · show Answer.taken store.accepts = .taken ((store.takeIn intake).has intake.data)
      rw [accepts.mpr room, has, keeps.stays room stays, Option.any_some, newRow, beq_self_eq_true]
  · exact congrArg Answer.taken (accepts.mpr pushed.room)
  · show ((store.takeIn intake).cached[intake.data.name]?).any _ = false
    rw [keeps.pushed_out pushed, pushed.unknown]
    rfl

/-- The store has room for one packet, which somebody asked for. Data that comes unasked
is reported as taken, and is not there. -/
theorem insert_claims_what_it_drops :
    (((empty 1).afterCalls [.insert ⟨{ name := ⟨[[97]]⟩, content := [1] }, false, .zero⟩]).call
        (.insert ⟨{ name := ⟨[[98]]⟩, content := [2] }, true, .zero⟩)).1 = .taken true ∧
      (((empty 1).afterCalls [.insert ⟨{ name := ⟨[[97]]⟩, content := [1] }, false, .zero⟩]).call
        (.insert ⟨{ name := ⟨[[98]]⟩, content := [2] }, true, .zero⟩)).2.has
          { name := ⟨[[98]]⟩, content := [2] } = false := by
  decide

end ContentStore

end NamedData
