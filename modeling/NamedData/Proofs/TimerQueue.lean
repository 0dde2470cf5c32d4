import NamedData.Timers

namespace NamedData

instance : Std.IsLinearOrder Duration where
  le_refl a := Nat.le_refl a.nanos
  le_trans _ _ _ := Nat.le_trans
  le_antisymm _ _ lower upper := Duration.ext (Nat.le_antisymm lower upper)
  le_total a b := Nat.le_total a.nanos b.nanos

theorem Duration.nanos_max (a b : Duration) : (Max.max a b).nanos = Max.max a.nanos b.nanos := by
  show (if a ≤ b then b else a).nanos = _
  split
  · rename_i lower
    exact (Nat.max_eq_right lower).symm
  · rename_i upper
    exact (Nat.max_eq_left (Nat.le_of_not_le upper)).symm

theorem Duration.max_add_left (start delay : Duration) :
    Max.max (start + delay) start = start + delay := by
  refine Duration.ext ?_
  rw [Duration.nanos_max]
  exact Nat.max_eq_left (Duration.le_add start delay)

instance : Std.LawfulOrderMax Duration where
  max_le_iff a b c := by
    rw [Duration.le_def, Duration.nanos_max]
    exact Nat.max_le
  max_eq_or a b := by
    show (if a ≤ b then b else a) = a ∨ (if a ≤ b then b else a) = b
    split
    · exact Or.inr rfl
    · exact Or.inl rfl

variable {α : Type}

/-- The numbers of the running timers were all handed out. -/
def Timers.Numbered (timers : Timers α) : Prop :=
  ∀ (timer : TimerId) (payload : α),
    timers.running[timer]? = some payload → timer.number ≤ timers.issued

theorem Timers.numbered_empty : (Timers.empty : Timers α).Numbered := by
  intro timer payload running
  simp [Timers.empty] at running

theorem Timers.running_scheduleAt {timers : Timers α} {deadline : Instant} {payload : α}
    (timer : TimerId) : (timers.scheduleAt deadline payload).2.running[timer]? =
      if timer = (timers.scheduleAt deadline payload).1 then some payload
      else timers.running[timer]? := by
  simp only [Timers.scheduleAt, Std.ExtTreeMap.getElem?_insert, Std.LawfulEqCmp.compare_eq_iff_eq,
    eq_comm (a := timer)]

theorem Timers.Numbered.fresh {timers : Timers α} (numbered : timers.Numbered)
    (deadline : Instant) (payload : α) :
    timers.running[(timers.scheduleAt deadline payload).1]? = none := by
  cases running : timers.running[(timers.scheduleAt deadline payload).1]? with
  | none => rfl
  | some other => exact absurd (numbered _ _ running) (Nat.not_succ_le_self _)

theorem Timers.Numbered.scheduleAt {timers : Timers α} (numbered : timers.Numbered)
    (deadline : Instant) (payload : α) : (timers.scheduleAt deadline payload).2.Numbered := by
  intro timer other running
  rw [Timers.running_scheduleAt] at running
  split at running
  · rename_i new
    rw [new]
    exact Nat.le_refl _
  · exact Nat.le_succ_of_le (numbered _ _ running)

theorem Timers.running_cancel {timers : Timers α} (stopped timer : TimerId) :
    (timers.cancel stopped).running[timer]? =
      if timer = stopped then none else timers.running[timer]? := by
  simp only [Timers.cancel, Std.ExtTreeMap.getElem?_erase, Std.LawfulEqCmp.compare_eq_iff_eq,
    eq_comm (a := timer)]

theorem Timers.Numbered.cancel {timers : Timers α} (numbered : timers.Numbered)
    (stopped : TimerId) : (timers.cancel stopped).Numbered := by
  intro timer payload running
  rw [Timers.running_cancel] at running
  split at running
  · cases running
  · exact numbered _ _ running

/-- What popping a timer does: it was running and due, none ran before it, the
clock moves to its deadline, and it alone leaves. -/
theorem Timers.popDue?_eq_some {timers rest : Timers α} {limit : Instant} {timer : Timer α}
    (popped : timers.popDue? limit = some (timer, rest)) :
    timers.running[timer.id]? = some timer.payload ∧ timer.id.deadline ≤ limit ∧
      rest = { timers.cancel timer.id with now := max timers.now timer.id.deadline } := by
  unfold Timers.popDue? at popped
  split at popped
  · cases popped
  · split at popped
    · rename_i id _ due
      obtain ⟨payload, found, same⟩ := Option.map_eq_some_iff.mp popped
      cases same
      exact ⟨found, due, rfl⟩
    · cases popped

theorem Timers.running_popped {timers rest : Timers α} {limit : Instant} {timer : Timer α}
    (popped : timers.popDue? limit = some (timer, rest)) (other : TimerId) :
    rest.running[other]? = if other = timer.id then none else timers.running[other]? := by
  obtain ⟨_, _, isRest⟩ := Timers.popDue?_eq_some popped
  rw [isRest]
  exact Timers.running_cancel timer.id other

/-- What runs for an event once a timer is set. -/
theorem Timers.runs_scheduleAt {timers : Timers α} (numbered : timers.Numbered) {deadline : Instant}
    {set event : α} (other : TimerId) :
    (timers.scheduleAt deadline set).2.running[other]? = some event ↔
      (other = (timers.scheduleAt deadline set).1 ∧ set = event) ∨
        timers.running[other]? = some event := by
  rw [running_scheduleAt]
  by_cases new : other = (timers.scheduleAt deadline set).1
  · rw [if_pos new, new, numbered.fresh]
    simp
  · rw [if_neg new]
    simp [new]

theorem Timers.runs_popped {timers rest : Timers α} {limit : Instant} {due : Timer α} {event : α}
    (popped : timers.popDue? limit = some (due, rest)) (other : TimerId) :
    rest.running[other]? = some event ↔
      other ≠ due.id ∧ timers.running[other]? = some event := by
  rw [running_popped popped]
  by_cases gone : other = due.id
  · simp [gone]
  · simp [gone]

/-- The first due timer by the ascending list of handles, which evaluates inside
a proof. -/
def Timers.firstDue? (timers : Timers α) (limit : Instant) : Option (Timer α × Timers α) :=
  match timers.running.keys.head? with
  | none => none
  | some id =>
    if id.deadline ≤ limit then
      timers.running[id]?.map fun payload =>
        (⟨id, payload⟩, { timers.cancel id with now := max timers.now id.deadline })
    else none

theorem Timers.popDue?_eq_firstDue? (timers : Timers α) (limit : Instant) :
    timers.popDue? limit = timers.firstDue? limit := by
  rw [popDue?, firstDue?, Std.ExtTreeMap.minKey?_eq_head?_keys]
  rfl

theorem TimerId.deadline_le {a b : TimerId} (first : (TimerId.order a b).isLE = true) :
    a.deadline ≤ b.deadline := by
  refine Nat.le_of_not_lt fun later => ?_
  have after : compare a.deadline.nanos b.deadline.nanos = .gt := Nat.compare_eq_gt.mpr later
  rw [TimerId.order, compareLex, compareOn, after] at first
  cases first

/-- Once no timer is due any more, those that still run are set for later. -/
theorem Timers.later_of_popDue? {timers : Timers α} {limit : Instant}
    (idle : timers.popDue? limit = none) {timer : TimerId} {payload : α}
    (running : timers.running[timer]? = some payload) : limit < timer.deadline := by
  have member : timer ∈ timers.running :=
    Std.ExtTreeMap.mem_iff_isSome_getElem?.mpr (by rw [running]; rfl)
  unfold Timers.popDue? at idle
  split at idle
  · rename_i bare
    rw [Std.ExtTreeMap.minKey?_eq_none_iff.mp bare] at member
    exact absurd member Std.ExtTreeMap.not_mem_empty
  · rename_i first least
    obtain ⟨present, lowest⟩ := Std.ExtTreeMap.minKey?_eq_some_iff_mem_and_forall.mp least
    split at idle
    · rw [Std.ExtTreeMap.getElem?_eq_some_getElem present] at idle
      cases idle
    · rename_i notDue
      exact Nat.lt_of_lt_of_le (Nat.lt_of_not_le notDue) (TimerId.deadline_le (lowest timer member))

theorem Timers.nextDeadline?_eq_none {timers : Timers α} :
    timers.nextDeadline? = none ↔ ∀ timer : TimerId, timers.running[timer]? = none := by
  rw [Timers.nextDeadline?, Option.map_eq_none_iff, Std.ExtTreeMap.minKey?_eq_none_iff]
  constructor
  · intro idle timer
    rw [idle, Std.ExtTreeMap.getElem?_empty]
  · intro idle
    exact Std.ExtTreeMap.ext_getElem? fun timer => by rw [idle, Std.ExtTreeMap.getElem?_empty]

end NamedData
