import Mathlib.Data.List.TakeWhile
import NamedData.Proofs.TimerList
import NamedData.Timers.Lazy

namespace NamedData

namespace LazyTimers

variable {α : Type} {timers : LazyTimers α} {list : TimerList α}

def keeping : TimerKeeping α (LazyTimers α) where
  start := .empty
  call
    | .schedule delay payload, timers =>
      (.set (timers.schedule delay payload).1, (timers.schedule delay payload).2)
    | .scheduleAt deadline payload, timers =>
      (.set (timers.scheduleAt deadline payload).1, (timers.scheduleAt deadline payload).2)
    | .cancel number, timers => (.stopped (timers.isRunning number), timers.cancel number)
    | .popDue limit, timers =>
      (.fired ((timers.popDue limit).1.map fun timer => (timer.id.number, timer.payload)),
        (timers.popDue limit).2)
    | .advanceTo time, timers => (.moved, timers.advanceTo time)
  view timers := ⟨timers.now, timers.nextDeadline?, timers.isRunning, timers.payloads.size⟩

theorem mem_place {id other : TimerId} {handles : List TimerId} :
    other ∈ place id handles ↔ other = id ∨ other ∈ handles := by
  induction handles with
  | nil => simp [place]
  | cons first rest ih =>
    rw [place]
    split
    · exact List.mem_cons
    · rw [List.mem_cons, ih, List.mem_cons]
      exact or_left_comm

theorem place_perm (id : TimerId) (handles : List TimerId) :
    (place id handles).Perm (id :: handles) := by
  induction handles with
  | nil => exact .refl _
  | cons first rest ih =>
    rw [place]
    split
    · exact .refl _
    · exact (ih.cons first).trans (.swap id first rest)

/-- The handles stay in firing order when a new one is put among them. -/
theorem ordered_place {id : TimerId} {handles : List TimerId}
    (ordered : handles.Pairwise fun a b => TimerId.order a b = .lt) (fresh : id ∉ handles) :
    (place id handles).Pairwise fun a b => TimerId.order a b = .lt := by
  induction handles with
  | nil => exact List.pairwise_singleton _ _
  | cons first rest ih =>
    obtain ⟨lowest, ordered'⟩ := List.pairwise_cons.mp ordered
    rw [place]
    split
    · rename_i before
      refine List.pairwise_cons.mpr ⟨fun other member => ?_, ordered⟩
      rcases List.mem_cons.mp member with rfl | later
      · exact before
      · exact Std.TransCmp.lt_trans before (lowest other later)
    · rename_i notBefore
      have after : TimerId.order first id = .lt := by
        cases compared : TimerId.order id first with
        | lt => exact absurd compared notBefore
        | eq =>
          rw [Std.LawfulEqCmp.compare_eq_iff_eq.mp compared] at fresh
          exact absurd List.mem_cons_self fresh
        | gt => exact Std.OrientedCmp.gt_iff_lt.mp compared
      refine List.pairwise_cons.mpr ⟨fun other member => ?_,
        ih ordered' fun later => fresh (List.mem_cons_of_mem first later)⟩
      rcases mem_place.mp member with rfl | later
      · exact after
      · exact lowest other later

/-- The queue carries the timers of the list, but its first handle may be that of
a stopped one. -/
structure Carries (timers : LazyTimers α) (list : TimerList α) : Prop where
  now : timers.now = list.now
  issued : timers.issued = list.issued
  proper : list.Proper
  running : ∀ timer, timer ∈ list.running ↔
    timer.id ∈ timers.handles ∧ timers.payloads[timer.id.number]? = some timer.payload
  size : timers.payloads.size = list.running.length
  ordered : timers.handles.Pairwise fun a b => TimerId.order a b = .lt
  handed : ∀ id ∈ timers.handles, id.number ≤ list.issued
  distinct : (timers.handles.map (·.number)).Nodup
  kept : ∀ number, timers.isRunning number = true → list.isRunning number = true

/-- The first handle is that of a running timer. Between two calls it always is,
so that it can be looked at without a search. -/
structure Agrees (timers : LazyTimers α) (list : TimerList α) : Prop extends Carries timers list where
  first : ∀ id, timers.handles.head? = some id → timers.isRunning id.number = true

theorem agrees_start : Agrees (.empty : LazyTimers α) .empty where
  now := rfl
  issued := rfl
  proper := TimerList.proper_empty
  running timer := by simp [TimerList.empty, empty]
  size := by simp [TimerList.empty, empty]
  ordered := .nil
  handed id member := by cases member
  distinct := .nil
  kept number runs := by simp [isRunning, empty] at runs
  first id found := by cases found

theorem isRunning_of_getElem? {number : Nat} {payload : α}
    (found : timers.payloads[number]? = some payload) : timers.isRunning number = true := by
  rw [isRunning, Std.ExtTreeMap.contains_iff_mem, Std.ExtTreeMap.mem_iff_isSome_getElem?, found]
  rfl

theorem Carries.isRunning (carries : timers.Carries list) (number : Nat) :
    timers.isRunning number = list.isRunning number := by
  rw [Bool.eq_iff_iff]
  refine ⟨carries.kept number, fun runs => ?_⟩
  obtain ⟨timer, member, rfl⟩ := TimerList.isRunning_iff.mp runs
  exact isRunning_of_getElem? ((carries.running timer).mp member).2

/-- What runs has its handle in the queue still. -/
theorem Carries.exists_timer (carries : timers.Carries list) {number : Nat}
    (runs : timers.isRunning number = true) :
    ∃ timer ∈ list.running, timer.id.number = number :=
  TimerList.isRunning_iff.mp (carries.kept number runs)

/-- A handle of the queue whose number runs is that of a timer on the list. -/
theorem Carries.timer_of_handle (carries : timers.Carries list) {id : TimerId}
    (member : id ∈ timers.handles) (runs : timers.isRunning id.number = true) :
    ∃ timer ∈ list.running, timer.id = id := by
  obtain ⟨timer, listed, same⟩ := carries.exists_timer runs
  have handle := ((carries.running timer).mp listed).1
  exact ⟨timer, listed, List.inj_on_of_nodup_map carries.distinct handle member same⟩

/-- Clearing lets only handles of stopped timers go. -/
theorem mem_clear {id : TimerId} (runs : timers.isRunning id.number = true) :
    id ∈ timers.clear.handles ↔ id ∈ timers.handles := by
  refine ⟨fun member => (List.dropWhile_sublist _).subset member, fun member => ?_⟩
  rw [← List.takeWhile_append_dropWhile (p := fun id => !timers.isRunning id.number)
    (l := timers.handles)] at member
  rcases List.mem_append.mp member with dropped | kept
  · have stopped := List.mem_takeWhile_imp dropped
    rw [runs] at stopped
    cases stopped
  · exact kept

theorem Carries.clear (carries : timers.Carries list) : timers.clear.Agrees list where
  now := carries.now
  issued := carries.issued
  proper := carries.proper
  running timer := by
    rw [carries.running]
    constructor
    · rintro ⟨member, found⟩
      exact ⟨(mem_clear (isRunning_of_getElem? found)).mpr member, found⟩
    · rintro ⟨member, found⟩
      have runs : timers.isRunning timer.id.number = true := isRunning_of_getElem? found
      exact ⟨(mem_clear runs).mp member, found⟩
  size := carries.size
  ordered := carries.ordered.sublist (List.dropWhile_sublist _)
  handed id member := carries.handed id ((List.dropWhile_sublist _).subset member)
  distinct := carries.distinct.sublist ((List.dropWhile_sublist _).map _)
  kept := carries.kept
  first id found := by
    have stops := List.head?_dropWhile_not (fun id => !timers.isRunning id.number) timers.handles
    rw [show (timers.handles.dropWhile _).head? = some id from found] at stops
    show timers.isRunning id.number = true
    simpa only [Bool.not_eq_false'] using stops

theorem clear_of_first (first : ∀ id, timers.handles.head? = some id →
    timers.isRunning id.number = true) : timers.clear = timers := by
  obtain ⟨now, issued, handles, payloads⟩ := timers
  cases handles with
  | nil => rfl
  | cons id rest =>
    have runs := first id rfl
    simp only [LazyTimers.clear, List.dropWhile_cons, runs]
    rfl

/-- The first handle is that of the least timer on the list. -/
theorem Agrees.head? (agrees : timers.Agrees list) :
    timers.handles.head? = (TimerList.least? list.running).map (·.id) := by
  cases handles : timers.handles with
  | nil =>
    have bare : list.running = [] := by
      refine List.eq_nil_iff_forall_not_mem.mpr fun timer member => ?_
      have handle := ((agrees.running timer).mp member).1
      rw [handles] at handle
      cases handle
    rw [TimerList.least?_eq_none.mpr bare]
    rfl
  | cons id rest =>
    have member : id ∈ timers.handles := by rw [handles]; exact List.mem_cons_self
    obtain ⟨timer, listed, same⟩ := agrees.timer_of_handle member
      (agrees.first id (by rw [handles]; rfl))
    have ordered := agrees.ordered
    rw [handles] at ordered
    rw [agrees.proper.least?_eq listed, Option.map_some, same]
    · rfl
    · intro other running
      have handle := ((agrees.running other).mp running).1
      rw [handles] at handle
      rw [same]
      rcases List.mem_cons.mp handle with new | later
      · rw [new]
        simp [Std.ReflCmp.compare_self]
      · rw [(List.pairwise_cons.mp ordered).1 other.id later]
        rfl

theorem Agrees.view (agrees : timers.Agrees list) :
    keeping.view timers = TimerList.keeping.view list := by
  show TimerView.mk _ _ _ _ = TimerView.mk _ _ _ _
  rw [agrees.now, agrees.size, nextDeadline?, agrees.head?, Option.map_map,
    funext agrees.isRunning]
  rfl

theorem Carries.fresh (carries : timers.Carries list) :
    timers.payloads.contains (list.issued + 1) = false ∧
      ∀ id ∈ timers.handles, id.number ≠ list.issued + 1 := by
  constructor
  · refine Bool.eq_false_iff.mpr fun runs => ?_
    obtain ⟨timer, member, same⟩ := carries.exists_timer runs
    have bound := carries.proper.numbered timer member
    omega
  · intro id member same
    have bound := carries.handed id member
    omega

theorem Carries.scheduleAt_eq (carries : timers.Carries list) (deadline : Instant) (payload : α) :
    (timers.scheduleAt deadline payload).2 = { timers with
      issued := list.issued + 1
      handles := place ⟨max deadline list.now, list.issued + 1⟩ timers.handles
      payloads := timers.payloads.insert (list.issued + 1) payload } := by
  simp only [LazyTimers.scheduleAt, carries.now, carries.issued]

theorem contains_insert_iff {payloads : Std.ExtTreeMap Nat α compare} {number other : Nat}
    {payload : α} : (payloads.insert number payload).contains other = true ↔
      other = number ∨ payloads.contains other = true := by
  rw [Std.ExtTreeMap.contains_insert, Bool.or_eq_true, beq_iff_eq,
    Std.LawfulEqCmp.compare_eq_iff_eq, eq_comm]

theorem Carries.scheduleAt (carries : timers.Carries list) (deadline : Instant) (payload : α) :
    (timers.scheduleAt deadline payload).2.Carries (list.add deadline payload) := by
  obtain ⟨unknown, fresh⟩ := carries.fresh
  rw [carries.scheduleAt_eq]
  refine ⟨carries.now, rfl, carries.proper.add deadline payload, ?_, ?_, ?_, ?_, ?_, ?_⟩
  · intro timer
    simp only [TimerList.add, List.mem_append, List.mem_singleton, mem_place, carries.running,
      Std.ExtTreeMap.getElem?_insert, Std.LawfulEqCmp.compare_eq_iff_eq]
    obtain ⟨id, carried⟩ := timer
    constructor
    · rintro (⟨member, found⟩ | new)
      · refine ⟨Or.inr member, ?_⟩
        rw [if_neg fun same => fresh id member same.symm, found]
      · cases new
        exact ⟨Or.inl rfl, if_pos rfl⟩
    · rintro ⟨rfl | member, found⟩
      · rw [if_pos rfl] at found
        cases found
        exact Or.inr rfl
      · rw [if_neg fun same => fresh id member same.symm] at found
        exact Or.inl ⟨member, found⟩
  · show (timers.payloads.insert _ payload).size = (list.running ++ [_]).length
    rw [Std.ExtTreeMap.size_insert, unknown, List.length_append, List.length_singleton,
      ← carries.size]
    rfl
  · exact ordered_place carries.ordered fun member => fresh _ member rfl
  · intro other member
    rcases mem_place.mp member with new | old
    · rw [new]
      exact Nat.le_refl _
    · exact Nat.le_succ_of_le (carries.handed other old)
  · refine ((place_perm _ timers.handles).map _).nodup_iff.mpr
      (List.nodup_cons.mpr ⟨fun member => ?_, carries.distinct⟩)
    obtain ⟨other, listed, same⟩ := List.mem_map.mp member
    exact fresh other listed same
  · intro number runs
    rw [TimerList.isRunning_iff]
    rcases contains_insert_iff.mp runs with new | old
    · exact ⟨_, List.mem_append_right _ List.mem_cons_self, new.symm⟩
    · obtain ⟨timer, member, numbered⟩ := carries.exists_timer old
      exact ⟨timer, List.mem_append_left _ member, numbered⟩

/-- The head of the handles is that of the new timer or the one it was. -/
theorem head?_place {id first : TimerId} {handles : List TimerId}
    (found : (place id handles).head? = some first) : first = id ∨ handles.head? = some first := by
  cases handles with
  | nil => exact Or.inl (Option.some.inj found).symm
  | cons other rest =>
    rw [place] at found
    split at found
    · exact Or.inl (Option.some.inj found).symm
    · exact Or.inr found

theorem Agrees.scheduleAt (agrees : timers.Agrees list) (deadline : Instant) (payload : α) :
    (timers.scheduleAt deadline payload).2.Agrees (list.add deadline payload) := by
  refine { agrees.toCarries.scheduleAt deadline payload with first := fun id found => ?_ }
  rw [agrees.scheduleAt_eq] at found ⊢
  rw [LazyTimers.isRunning, contains_insert_iff]
  rcases head?_place found with new | old
  · exact Or.inl (congrArg TimerId.number new)
  · exact Or.inr (agrees.first id old)

theorem contains_erase_iff {payloads : Std.ExtTreeMap Nat α compare} {number other : Nat} :
    (payloads.erase number).contains other = true ↔
      other ≠ number ∧ payloads.contains other = true := by
  rw [Std.ExtTreeMap.contains_erase, Bool.and_eq_true, bne_iff_ne, ne_eq,
    Std.LawfulEqCmp.compare_eq_iff_eq, eq_comm]

/-- Stopping a timer leaves its handle where it is. -/
theorem Carries.erase (carries : timers.Carries list) (number : Nat) :
    Carries { timers with payloads := timers.payloads.erase number } (list.delete number) where
  now := carries.now
  issued := carries.issued
  proper := carries.proper.delete number
  running timer := by
    rw [TimerList.mem_delete, carries.running, Std.ExtTreeMap.getElem?_erase]
    constructor
    · rintro ⟨⟨member, found⟩, other⟩
      refine ⟨member, ?_⟩
      rw [if_neg, found]
      exact fun same => other (Std.LawfulEqCmp.compare_eq_iff_eq.mp same).symm
    · rintro ⟨member, found⟩
      split at found
      · cases found
      · rename_i other
        exact ⟨⟨member, found⟩, fun same => other (Std.LawfulEqCmp.compare_eq_iff_eq.mpr same.symm)⟩
  size := by
    have runs := carries.isRunning number
    rw [LazyTimers.isRunning] at runs
    rw [carries.proper.length_delete, Std.ExtTreeMap.size_erase, runs, carries.size]
  ordered := carries.ordered
  handed := carries.handed
  distinct := carries.distinct
  kept other runs := by
    obtain ⟨different, running⟩ := contains_erase_iff.mp runs
    obtain ⟨timer, member, same⟩ := carries.exists_timer running
    exact TimerList.isRunning_iff.mpr
      ⟨timer, TimerList.mem_delete.mpr ⟨member, fun mine => different (same.symm.trans mine)⟩, same⟩

/-- The handle of a stopped timer can be taken out. -/
theorem Carries.tail (carries : timers.Carries list) {id : TimerId} {rest : List TimerId}
    (handles : timers.handles = id :: rest) (stopped : timers.isRunning id.number = false) :
    Carries { timers with handles := rest } list where
  now := carries.now
  issued := carries.issued
  proper := carries.proper
  running timer := by
    rw [carries.running, handles, List.mem_cons]
    refine ⟨?_, fun ⟨member, found⟩ => ⟨Or.inr member, found⟩⟩
    rintro ⟨same | member, found⟩
    · rw [same] at found
      rw [isRunning_of_getElem? found] at stopped
      cases stopped
    · exact ⟨member, found⟩
  size := carries.size
  ordered := by
    have ordered := carries.ordered
    rw [handles] at ordered
    exact (List.pairwise_cons.mp ordered).2
  handed other member := carries.handed other (by rw [handles]; exact List.mem_cons_of_mem id member)
  distinct := by
    have distinct := carries.distinct
    rw [handles] at distinct
    exact (List.nodup_cons.mp distinct).2
  kept := carries.kept

theorem Agrees.moved (agrees : timers.Agrees list) (time : Instant) :
    Agrees { timers with now := time } { list with now := time } :=
  { agrees with
    now := rfl
    proper := ⟨agrees.proper.numbered, agrees.proper.distinct⟩ }

theorem Agrees.popDue (agrees : timers.Agrees list) (limit : Instant) :
    ((timers.popDue limit).1.map fun timer => (timer.id.number, timer.payload)) =
      (list.pop limit).1 ∧ (timers.popDue limit).2.Agrees (list.pop limit).2 := by
  have first := agrees.head?
  cases handles : timers.handles with
  | nil =>
    rw [handles, List.head?_nil] at first
    have none : TimerList.least? list.running = none := Option.map_eq_none_iff.mp first.symm
    simp only [LazyTimers.popDue, clear_of_first agrees.first, handles, TimerList.pop, none,
      Option.map_none]
    exact ⟨trivial, agrees⟩
  | cons id rest =>
    rw [handles, List.head?_cons] at first
    obtain ⟨timer, least, same⟩ := Option.map_eq_some_iff.mp first.symm
    subst same
    obtain ⟨_, found⟩ := (agrees.running timer).mp (TimerList.least?_spec least).1
    simp only [LazyTimers.popDue, clear_of_first agrees.first, handles, TimerList.pop, least, found]
    by_cases due : timer.id.deadline ≤ limit
    · have erased := agrees.toCarries.erase timer.id.number
      have stopped : isRunning { timers with payloads := timers.payloads.erase timer.id.number }
          timer.id.number = false :=
        Bool.eq_false_iff.mpr fun runs => (contains_erase_iff.mp runs).1 rfl
      have cleared := ((erased.tail handles stopped).clear).moved (max list.now timer.id.deadline)
      rw [if_pos due, if_pos due]
      refine ⟨rfl, ?_⟩
      show Agrees { clear { timers with
        handles := rest, payloads := timers.payloads.erase timer.id.number } with
        now := max timers.now timer.id.deadline } _
      rw [agrees.now]
      exact cleared
    · rw [if_neg due, if_neg due]
      exact ⟨rfl, agrees⟩

theorem Agrees.call (agrees : timers.Agrees list) (call : TimerCall α) :
    (keeping.call call timers).1 = (TimerList.keeping.call call list).1 ∧
      (keeping.call call timers).2.Agrees (TimerList.keeping.call call list).2 := by
  cases call with
  | schedule delay payload =>
    refine ⟨congrArg (fun issued => TimerAnswer.set (issued + 1)) agrees.issued, ?_⟩
    show (timers.scheduleAt (timers.now + delay) payload).2.Agrees _
    rw [agrees.now]
    exact agrees.scheduleAt (list.now + delay) payload
  | scheduleAt deadline payload =>
    exact ⟨congrArg (fun issued => TimerAnswer.set (issued + 1)) agrees.issued,
      agrees.scheduleAt deadline payload⟩
  | cancel number =>
    exact ⟨congrArg TimerAnswer.stopped (agrees.isRunning number),
      (agrees.toCarries.erase number).clear⟩
  | popDue limit =>
    exact ⟨congrArg TimerAnswer.fired (agrees.popDue limit).1, (agrees.popDue limit).2⟩
  | advanceTo time =>
    refine ⟨rfl, ?_⟩
    show Agrees (timers.advanceTo time) { list with now := max list.now time }
    rw [LazyTimers.advanceTo, agrees.now]
    exact agrees.moved (max list.now time)

end LazyTimers

end NamedData
