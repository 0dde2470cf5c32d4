import NamedData.Proofs.LazyTimers

namespace NamedData

variable {α : Type}

/-- A queue together with the handles that its host was given. -/
structure HeldTimers (α : Type) where
  timers : Timers α
  handles : List TimerId

namespace HeldTimers

def handle? (held : HeldTimers α) (number : Nat) : Option TimerId :=
  held.handles.find? (·.number == number)

def isRunning (held : HeldTimers α) (number : Nat) : Bool :=
  (held.handle? number).any held.timers.isRunning

def add (held : HeldTimers α) (deadline : Instant) (payload : α) : HeldTimers α :=
  let (id, timers) := held.timers.scheduleAt deadline payload
  ⟨timers, held.handles ++ [id]⟩

def delete (held : HeldTimers α) (number : Nat) : HeldTimers α :=
  match held.handle? number with
  | none => held
  | some id => { held with timers := held.timers.cancel id }

def pop (held : HeldTimers α) (limit : Instant) : Option (Nat × α) × HeldTimers α :=
  match held.timers.popDue? limit with
  | none => (none, held)
  | some (timer, timers) => (some (timer.id.number, timer.payload), { held with timers })

def keeping : TimerKeeping α (HeldTimers α) where
  start := ⟨.empty, []⟩
  call
    | .schedule delay payload, held =>
      (.set (held.timers.schedule delay payload).1.number, held.add (held.timers.now + delay) payload)
    | .scheduleAt deadline payload, held =>
      (.set (held.timers.scheduleAt deadline payload).1.number, held.add deadline payload)
    | .cancel number, held => (.stopped (held.isRunning number), held.delete number)
    | .popDue limit, held => (.fired (held.pop limit).1, (held.pop limit).2)
    | .advanceTo time, held => (.moved, { held with timers := held.timers.advanceTo time })
  view held := ⟨held.timers.now, held.timers.nextDeadline?, held.isRunning, held.timers.running.size⟩

variable {held : HeldTimers α} {list : TimerList α}

/-- The queue runs the timers of the list, and its host has their handles. -/
structure Agrees (held : HeldTimers α) (list : TimerList α) : Prop where
  now : held.timers.now = list.now
  issued : held.timers.issued = list.issued
  proper : list.Proper
  running : ∀ timer, timer ∈ list.running ↔ held.timers.running[timer.id]? = some timer.payload
  size : held.timers.running.size = list.running.length
  given : ∀ timer ∈ list.running, held.handle? timer.id.number = some timer.id
  handed : ∀ id ∈ held.handles, id.number ≤ list.issued

theorem agrees_start : Agrees (⟨.empty, []⟩ : HeldTimers α) .empty where
  now := rfl
  issued := rfl
  proper := TimerList.proper_empty
  running timer := by simp [TimerList.empty, Timers.empty]
  size := by simp [TimerList.empty, Timers.empty]
  given timer member := by cases member
  handed id member := by cases member

theorem number_of_handle? {number : Nat} {id : TimerId} (found : held.handle? number = some id) :
    id.number = number :=
  beq_iff_eq.mp (List.find?_some (p := fun id : TimerId => id.number == number) found)

theorem Agrees.isRunning (agrees : held.Agrees list) (number : Nat) :
    held.isRunning number = list.isRunning number := by
  rw [Bool.eq_iff_iff, TimerList.isRunning_iff, HeldTimers.isRunning, Option.any_eq_true]
  constructor
  · rintro ⟨id, found, runs⟩
    obtain ⟨payload, present⟩ := Option.isSome_iff_exists.mp
      (Std.ExtTreeMap.mem_iff_isSome_getElem?.mp (Std.ExtTreeMap.contains_iff_mem.mp runs))
    exact ⟨⟨id, payload⟩, (agrees.running _).mpr present, number_of_handle? found⟩
  · rintro ⟨timer, member, rfl⟩
    refine ⟨timer.id, agrees.given timer member, ?_⟩
    rw [Timers.isRunning, Std.ExtTreeMap.contains_iff_mem, Std.ExtTreeMap.mem_iff_isSome_getElem?,
      (agrees.running timer).mp member]
    rfl

/-- Both find the same timer next. -/
theorem Agrees.minKey? (agrees : held.Agrees list) :
    held.timers.running.minKey? = (TimerList.least? list.running).map (·.id) := by
  cases least : TimerList.least? list.running with
  | none =>
    rw [Option.map_none, Std.ExtTreeMap.minKey?_eq_none_iff]
    refine Std.ExtTreeMap.ext_getElem? fun id => ?_
    rw [Std.ExtTreeMap.getElem?_empty]
    cases present : held.timers.running[id]? with
    | none => rfl
    | some payload =>
      have member := (agrees.running ⟨id, payload⟩).mpr present
      rw [TimerList.least?_eq_none.mp least] at member
      cases member
  | some first =>
    obtain ⟨member, lowest⟩ := TimerList.least?_spec least
    refine Std.ExtTreeMap.minKey?_eq_some_iff_mem_and_forall.mpr ⟨?_, fun id present => ?_⟩
    · rw [Std.ExtTreeMap.mem_iff_isSome_getElem?, (agrees.running first).mp member]
      rfl
    · obtain ⟨payload, found⟩ := Option.isSome_iff_exists.mp
        (Std.ExtTreeMap.mem_iff_isSome_getElem?.mp present)
      exact lowest ⟨id, payload⟩ ((agrees.running _).mpr found)

theorem Agrees.view (agrees : held.Agrees list) :
    keeping.view held = TimerList.keeping.view list := by
  show TimerView.mk _ _ _ _ = TimerView.mk _ _ _ _
  rw [agrees.now, agrees.size, Timers.nextDeadline?, agrees.minKey?, Option.map_map,
    funext agrees.isRunning]
  rfl

/-- The handle of a new timer. -/
def newHandle (list : TimerList α) (deadline : Instant) : TimerId :=
  ⟨max deadline list.now, list.issued + 1⟩

theorem Agrees.fresh (agrees : held.Agrees list) (deadline : Instant) :
    held.timers.running[newHandle list deadline]? = none := by
  cases present : held.timers.running[newHandle list deadline]? with
  | none => rfl
  | some other =>
    have bound := agrees.proper.numbered _ ((agrees.running ⟨_, other⟩).mpr present)
    exact absurd bound (Nat.not_succ_le_self _)

theorem Agrees.add_eq (agrees : held.Agrees list) (deadline : Instant) (payload : α) :
    held.add deadline payload =
      ⟨{ held.timers with
          issued := list.issued + 1
          running := held.timers.running.insert (newHandle list deadline) payload },
        held.handles ++ [newHandle list deadline]⟩ := by
  simp only [HeldTimers.add, Timers.scheduleAt, newHandle, agrees.now, agrees.issued]

theorem Agrees.add (agrees : held.Agrees list) (deadline : Instant) (payload : α) :
    (held.add deadline payload).Agrees (list.add deadline payload) := by
  rw [agrees.add_eq]
  refine ⟨agrees.now, rfl, agrees.proper.add deadline payload, ?_, ?_, ?_, ?_⟩
  · intro timer
    show timer ∈ list.running ++ [_] ↔
      (held.timers.running.insert (newHandle list deadline) payload)[timer.id]? = _
    rw [List.mem_append, List.mem_singleton, agrees.running, Std.ExtTreeMap.getElem?_insert]
    obtain ⟨id, carried⟩ := timer
    simp only [Std.LawfulEqCmp.compare_eq_iff_eq, Timer.mk.injEq]
    split
    · rename_i new
      subst new
      rw [agrees.fresh]
      simp [eq_comm, newHandle]
    · rename_i old
      simp [show id ≠ ⟨max deadline list.now, list.issued + 1⟩ from Ne.symm old]
  · show (held.timers.running.insert (newHandle list deadline) payload).size =
      (list.running ++ [_]).length
    rw [Std.ExtTreeMap.size_insert, if_neg, agrees.size, List.length_append, List.length_singleton]
    rw [Std.ExtTreeMap.contains_iff_mem, Std.ExtTreeMap.mem_iff_isSome_getElem?, agrees.fresh]
    exact Bool.false_ne_true
  · intro timer member
    simp only [handle?, List.find?_append]
    rcases List.mem_append.mp member with old | new
    · rw [show held.handles.find? _ = some timer.id from agrees.given timer old]
      rfl
    · rw [List.mem_singleton.mp new]
      have unknown : held.handles.find? (·.number == list.issued + 1) = none := by
        refine List.find?_eq_none.mpr fun id known same => ?_
        have bound := agrees.handed id known
        rw [beq_iff_eq.mp same] at bound
        exact Nat.not_succ_le_self _ bound
      rw [unknown]
      simp [newHandle]
  · intro id member
    rcases List.mem_append.mp member with old | new
    · exact Nat.le_succ_of_le (agrees.handed id old)
    · rw [List.mem_singleton.mp new]
      exact Nat.le_refl _

theorem Agrees.delete (agrees : held.Agrees list) (number : Nat) :
    (held.delete number).Agrees (list.delete number) := by
  cases found : held.handle? number with
  | none =>
    have idle : list.isRunning number = false := by
      rw [← agrees.isRunning, HeldTimers.isRunning, found, Option.any_none]
    rw [TimerList.delete_of_idle idle]
    simpa only [HeldTimers.delete, found] using agrees
  | some id =>
    have same := number_of_handle? found
    simp only [HeldTimers.delete, found]
    refine ⟨agrees.now, agrees.issued, agrees.proper.delete number, ?_, ?_, ?_, agrees.handed⟩
    · intro timer
      rw [TimerList.mem_delete, agrees.running, Timers.running_cancel]
      constructor
      · rintro ⟨present, other⟩
        rw [if_neg, present]
        rintro rfl
        exact other same
      · intro present
        split at present
        · cases present
        · rename_i other
          refine ⟨present, fun mine => other ?_⟩
          have given := agrees.given timer ((agrees.running timer).mpr present)
          rw [mine, found] at given
          exact (Option.some.inj given).symm
    · have running := agrees.isRunning number
      rw [HeldTimers.isRunning, found, Option.any_some, Timers.isRunning] at running
      rw [agrees.proper.length_delete, ← running, Timers.cancel, Std.ExtTreeMap.size_erase,
        agrees.size]
    · exact fun timer member => agrees.given timer (TimerList.mem_delete.mp member).1

theorem Agrees.moved (agrees : held.Agrees list) (time : Instant) :
    Agrees { held with timers := { held.timers with now := time } } { list with now := time } :=
  ⟨rfl, agrees.issued, ⟨agrees.proper.numbered, agrees.proper.distinct⟩, agrees.running,
    agrees.size, agrees.given, agrees.handed⟩

theorem Agrees.pop (agrees : held.Agrees list) (limit : Instant) :
    (held.pop limit).1 = (list.pop limit).1 ∧ (held.pop limit).2.Agrees (list.pop limit).2 := by
  cases least : TimerList.least? list.running with
  | none =>
    simp only [HeldTimers.pop, Timers.popDue?, agrees.minKey?, least, Option.map_none, TimerList.pop]
    exact ⟨trivial, agrees⟩
  | some first =>
    obtain ⟨member, _⟩ := TimerList.least?_spec least
    by_cases due : first.id.deadline ≤ limit
    · have deleted := (agrees.delete first.id.number).moved (max list.now first.id.deadline)
      have given := agrees.given first member
      simp only [HeldTimers.delete, given] at deleted
      simp only [HeldTimers.pop, Timers.popDue?, agrees.minKey?, least, Option.map_some,
        TimerList.pop, if_pos due, (agrees.running first).mp member, agrees.now]
      exact ⟨trivial, deleted⟩
    · simp only [HeldTimers.pop, Timers.popDue?, agrees.minKey?, least, Option.map_some,
        TimerList.pop, if_neg due]
      exact ⟨trivial, agrees⟩

theorem Agrees.call (agrees : held.Agrees list) (call : TimerCall α) :
    (keeping.call call held).1 = (TimerList.keeping.call call list).1 ∧
      (keeping.call call held).2.Agrees (TimerList.keeping.call call list).2 := by
  cases call with
  | schedule delay payload =>
    refine ⟨congrArg (fun issued => TimerAnswer.set (issued + 1)) agrees.issued, ?_⟩
    have added := agrees.add (list.now + delay) payload
    show (held.add (held.timers.now + delay) payload).Agrees _
    rw [agrees.now]
    exact added
  | scheduleAt deadline payload =>
    exact ⟨congrArg (fun issued => TimerAnswer.set (issued + 1)) agrees.issued, agrees.add deadline payload⟩
  | cancel number =>
    exact ⟨congrArg TimerAnswer.stopped (agrees.isRunning number), agrees.delete number⟩
  | popDue limit =>
    exact ⟨congrArg TimerAnswer.fired (agrees.pop limit).1, (agrees.pop limit).2⟩
  | advanceTo time =>
    refine ⟨rfl, ?_⟩
    show Agrees { held with timers := held.timers.advanceTo time } { list with now := max list.now time }
    rw [Timers.advanceTo, agrees.now]
    exact agrees.moved (max list.now time)

end HeldTimers

/-- A queue of timers answers every sequence of calls as the plain list of the
running timers does, and so does the queue that is spared the search when a timer
is stopped. Each timer fires at most once, and never once it was stopped. -/
theorem timers_refine_the_list (calls : List (TimerCall α)) :
    HeldTimers.keeping.record HeldTimers.keeping.start calls =
        TimerList.keeping.record TimerList.keeping.start calls ∧
      LazyTimers.keeping.record LazyTimers.keeping.start calls =
        TimerList.keeping.record TimerList.keeping.start calls ∧
      (TimerList.keeping.record TimerList.keeping.start calls).Pairwise fun earlier later =>
        ∀ number, earlier.ends? = some number → later.ends? ≠ some number :=
  ⟨TimerKeeping.record_eq HeldTimers.Agrees.view HeldTimers.Agrees.call HeldTimers.agrees_start calls,
    TimerKeeping.record_eq LazyTimers.Agrees.view LazyTimers.Agrees.call LazyTimers.agrees_start calls,
    TimerList.proper_empty.ends_once calls⟩

end NamedData
