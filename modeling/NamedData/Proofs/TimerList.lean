import Mathlib.Data.List.Nodup
import NamedData.Proofs.TimerQueue

namespace NamedData

variable {α σ τ : Type}

theorem TimerId.order_eq_lt {a b : TimerId} : TimerId.order a b = .lt ↔
    a.deadline < b.deadline ∨ a.deadline = b.deadline ∧ a.number < b.number := by
  simp only [TimerId.order, compareLex, compareOn, Ordering.then_eq_lt, Nat.compare_eq_lt,
    Nat.compare_eq_eq, Duration.lt_def, Duration.ext_iff]

/-- What a host asks of a queue of timers. It names a timer by its number. -/
inductive TimerCall (α : Type) where
  | schedule (delay : Duration) (payload : α)
  | scheduleAt (deadline : Instant) (payload : α)
  | cancel (number : Nat)
  | popDue (limit : Instant)
  | advanceTo (time : Instant)

/-- What a queue answers: the number of a new timer, whether a timer was running
that is stopped now, or what has fired. -/
inductive TimerAnswer (α : Type) where
  | set (number : Nat)
  | stopped (running : Bool)
  | fired (timer : Option (Nat × α))
  | moved

/-- What a host can see of a queue at any time. -/
structure TimerView where
  now : Instant
  nextDeadline : Option Instant
  isRunning : Nat → Bool
  count : Nat

/-- A way to keep timers. -/
structure TimerKeeping (α σ : Type) where
  start : σ
  call : TimerCall α → σ → TimerAnswer α × σ
  view : σ → TimerView

/-- One call, the answer to it and what is seen afterwards. -/
structure TimerRecord (α : Type) where
  call : TimerCall α
  answer : TimerAnswer α
  seen : TimerView

namespace TimerRecord

/-- The number of the timer that fires. -/
def fires? (record : TimerRecord α) : Option Nat :=
  match record.answer with
  | .fired timer => timer.map (·.1)
  | _ => none

/-- The number of the timer that fires or is stopped. -/
def ends? (record : TimerRecord α) : Option Nat :=
  match record.call, record.answer with
  | .cancel number, .stopped true => some number
  | _, _ => record.fires?

end TimerRecord

namespace TimerKeeping

/-- All that a host ever learns when it makes one call after another. -/
def record (keeping : TimerKeeping α σ) (state : σ) : List (TimerCall α) → List (TimerRecord α)
  | [] => []
  | call :: rest =>
    let (answer, next) := keeping.call call state
    ⟨call, answer, keeping.view next⟩ :: keeping.record next rest

/-- Two ways to keep timers cannot be told apart by calls that go on from related
states, when related states answer alike and stay related. -/
theorem record_eq {first : TimerKeeping α σ} {second : TimerKeeping α τ} {Related : σ → τ → Prop}
    (seen : ∀ {a b}, Related a b → first.view a = second.view b)
    (answers : ∀ {a b}, Related a b → ∀ call, (first.call call a).1 = (second.call call b).1 ∧
      Related (first.call call a).2 (second.call call b).2)
    {a : σ} {b : τ} (related : Related a b) (calls : List (TimerCall α)) :
    first.record a calls = second.record b calls := by
  induction calls generalizing a b with
  | nil => rfl
  | cons call rest ih =>
    obtain ⟨same, next⟩ := answers related call
    simp only [record, same, seen next, ih next]

end TimerKeeping

/-- The plain list of the timers that run, with the clock. -/
structure TimerList (α : Type) where
  now : Instant
  issued : Nat
  running : List (Timer α)

namespace TimerList

def empty : TimerList α := ⟨Duration.zero, 0, []⟩

def add (list : TimerList α) (deadline : Instant) (payload : α) : TimerList α where
  now := list.now
  issued := list.issued + 1
  running := list.running ++ [⟨⟨max deadline list.now, list.issued + 1⟩, payload⟩]

def isRunning (list : TimerList α) (number : Nat) : Bool :=
  list.running.any (·.id.number == number)

def delete (list : TimerList α) (number : Nat) : TimerList α :=
  { list with running := list.running.filter (·.id.number != number) }

/-- The earlier deadline comes first, and of equal ones the smaller number. -/
def comesBefore (a b : Timer α) : Bool :=
  a.id.deadline < b.id.deadline ||
    (a.id.deadline == b.id.deadline && a.id.number < b.id.number)

def least? : List (Timer α) → Option (Timer α)
  | [] => none
  | timer :: rest =>
    match least? rest with
    | none => some timer
    | some other => if comesBefore other timer then some other else some timer

def nextDeadline? (list : TimerList α) : Option Instant :=
  (least? list.running).map (·.id.deadline)

/-- Removes the least timer if it is due, and moves the clock to its deadline. -/
def pop (list : TimerList α) (limit : Instant) : Option (Nat × α) × TimerList α :=
  match least? list.running with
  | none => (none, list)
  | some timer =>
    if timer.id.deadline ≤ limit then
      (some (timer.id.number, timer.payload),
        { list.delete timer.id.number with now := max list.now timer.id.deadline })
    else (none, list)

def keeping : TimerKeeping α (TimerList α) where
  start := empty
  call
    | .schedule delay payload, list => (.set (list.issued + 1), list.add (list.now + delay) payload)
    | .scheduleAt deadline payload, list => (.set (list.issued + 1), list.add deadline payload)
    | .cancel number, list => (.stopped (list.isRunning number), list.delete number)
    | .popDue limit, list => (.fired (list.pop limit).1, (list.pop limit).2)
    | .advanceTo time, list => (.moved, { list with now := max list.now time })
  view list := ⟨list.now, list.nextDeadline?, list.isRunning, list.running.length⟩

variable {list : TimerList α}

theorem comesBefore_iff {a b : Timer α} :
    comesBefore a b = true ↔ TimerId.order a.id b.id = .lt := by
  simp only [comesBefore, TimerId.order_eq_lt, Bool.or_eq_true, Bool.and_eq_true, decide_eq_true_eq,
    beq_iff_eq]

theorem least?_eq_none {running : List (Timer α)} : least? running = none ↔ running = [] := by
  cases running with
  | nil => simp [least?]
  | cons timer rest =>
    rw [least?]
    split
    · simp
    · split <;> simp

theorem least?_spec {running : List (Timer α)} {timer : Timer α}
    (least : least? running = some timer) :
    timer ∈ running ∧ ∀ other ∈ running, (TimerId.order timer.id other.id).isLE = true := by
  induction running generalizing timer with
  | nil => cases least
  | cons first rest ih =>
    rw [least?] at least
    split at least
    · rename_i bare
      cases least
      rw [least?_eq_none.mp bare]
      simp [Std.ReflCmp.compare_self]
    · rename_i other found
      obtain ⟨member, lowest⟩ := ih found
      split at least
      · rename_i before
        cases least
        refine ⟨List.mem_cons_of_mem first member, ?_⟩
        intro next listed
        rcases List.mem_cons.mp listed with rfl | listed
        · rw [comesBefore_iff.mp before]
          rfl
        · exact lowest next listed
      · rename_i after
        cases least
        have lower : (TimerId.order first.id other.id).isLE = true := by
          rw [Ordering.isLE_iff_ne_gt, Std.OrientedCmp.gt_iff_lt, ← comesBefore_iff]
          exact after
        refine ⟨List.mem_cons_self, ?_⟩
        intro next listed
        rcases List.mem_cons.mp listed with rfl | listed
        · simp [Std.ReflCmp.compare_self]
        · exact Std.TransCmp.isLE_trans lower (lowest next listed)

/-- The numbers of the timers on the list were handed out, each once. -/
structure Proper (list : TimerList α) : Prop where
  numbered : ∀ timer ∈ list.running, timer.id.number ≤ list.issued
  distinct : (list.running.map (·.id.number)).Nodup

theorem proper_empty : (empty : TimerList α).Proper :=
  ⟨fun _ member => (by cases member), List.nodup_nil⟩

theorem Proper.eq_of_number (proper : list.Proper) {a b : Timer α} (first : a ∈ list.running)
    (second : b ∈ list.running) (same : a.id.number = b.id.number) : a = b :=
  List.inj_on_of_nodup_map proper.distinct first second same

theorem Proper.add (proper : list.Proper) (deadline : Instant) (payload : α) :
    (list.add deadline payload).Proper where
  numbered timer member := by
    rcases List.mem_append.mp member with old | new
    · exact Nat.le_succ_of_le (proper.numbered timer old)
    · rw [List.mem_singleton.mp new]
      exact Nat.le_refl _
  distinct := by
    simp only [TimerList.add, List.map_append, List.map_cons, List.map_nil]
    refine List.nodup_append.mpr ⟨proper.distinct, List.nodup_singleton _, ?_⟩
    intro old member new isNew
    obtain ⟨timer, listed, same⟩ := List.mem_map.mp member
    have bound := proper.numbered timer listed
    have fresh := List.mem_singleton.mp isNew
    omega

theorem Proper.delete (proper : list.Proper) (number : Nat) : (list.delete number).Proper where
  numbered timer member := proper.numbered timer (List.mem_of_mem_filter member)
  distinct := proper.distinct.sublist ((List.filter_sublist (l := list.running)).map _)

theorem isRunning_iff {number : Nat} :
    list.isRunning number = true ↔ ∃ timer ∈ list.running, timer.id.number = number := by
  simp [isRunning]

theorem mem_delete {number : Nat} {timer : Timer α} :
    timer ∈ (list.delete number).running ↔ timer ∈ list.running ∧ timer.id.number ≠ number := by
  simp [delete]

theorem Proper.length_delete (proper : list.Proper) (number : Nat) :
    (list.delete number).running.length =
      if list.isRunning number then list.running.length - 1 else list.running.length := by
  have numbers : (list.delete number).running.map (·.id.number) =
      (list.running.map (·.id.number)).erase number := by
    rw [proper.distinct.erase_eq_filter, List.filter_map]
    rfl
  have lengths := congrArg List.length numbers
  rw [List.length_map, List.length_erase, List.length_map] at lengths
  rw [lengths]
  simp [isRunning]

theorem delete_of_idle {number : Nat} (idle : list.isRunning number = false) :
    list.delete number = list := by
  have all : list.running.filter (·.id.number != number) = list.running := by
    refine List.filter_eq_self.mpr fun timer member => bne_iff_ne.mpr fun same => ?_
    rw [isRunning_iff.mpr ⟨timer, member, same⟩] at idle
    cases idle
  rw [delete, all]

/-- The first timer to fire is the one that no other comes before. -/
theorem Proper.least?_eq (proper : list.Proper) {timer : Timer α} (member : timer ∈ list.running)
    (lowest : ∀ other ∈ list.running, (TimerId.order timer.id other.id).isLE = true) :
    least? list.running = some timer := by
  cases found : least? list.running with
  | none => rw [least?_eq_none.mp found] at member; cases member
  | some first =>
    obtain ⟨listed, lower⟩ := least?_spec found
    have same : timer.id = first.id := Std.LawfulEqCmp.compare_eq_iff_eq.mp
      (Std.OrientedCmp.isLE_antisymm (lowest first listed) (lower timer member))
    rw [proper.eq_of_number listed member (congrArg TimerId.number same.symm)]

/-- A timer was set and runs no more. -/
def Over (list : TimerList α) (number : Nat) : Prop :=
  number ≤ list.issued ∧ list.isRunning number = false

theorem isRunning_delete {number other : Nat} :
    (list.delete number).isRunning other = true ↔ list.isRunning other = true ∧ other ≠ number := by
  simp only [isRunning_iff, mem_delete]
  constructor
  · rintro ⟨timer, ⟨member, different⟩, rfl⟩
    exact ⟨⟨timer, member, rfl⟩, different⟩
  · rintro ⟨⟨timer, member, rfl⟩, different⟩
    exact ⟨timer, ⟨member, different⟩, rfl⟩

theorem Proper.number_le (proper : list.Proper) {number : Nat} (runs : list.isRunning number = true) :
    number ≤ list.issued := by
  obtain ⟨timer, member, rfl⟩ := isRunning_iff.mp runs
  exact proper.numbered timer member

theorem Proper.over_delete (proper : list.Proper) {number : Nat}
    (runs : list.isRunning number = true) : (list.delete number).Over number :=
  ⟨proper.number_le runs, Bool.eq_false_iff.mpr fun still => (isRunning_delete.mp still).2 rfl⟩

theorem Over.delete {number : Nat} (past : list.Over number) (other : Nat) :
    (list.delete other).Over number :=
  ⟨past.1, Bool.eq_false_iff.mpr fun runs =>
    Bool.eq_false_iff.mp past.2 (isRunning_delete.mp runs).1⟩

theorem Over.add {number : Nat} (past : list.Over number) (deadline : Instant) (payload : α) :
    (list.add deadline payload).Over number := by
  refine ⟨Nat.le_succ_of_le past.1, ?_⟩
  have other : list.issued + 1 ≠ number := fun same => by
    have bound := past.1
    omega
  have idle := past.2
  rw [isRunning] at idle ⊢
  rw [TimerList.add, List.any_append, idle, List.any_cons, List.any_nil]
  simp [other]

/-- What comes of a call to pop: nothing, or the least timer, which runs. -/
theorem pop_cases (list : TimerList α) (limit : Instant) :
    list.pop limit = (none, list) ∨ ∃ number payload now, list.isRunning number = true ∧
      list.pop limit = (some (number, payload), { list.delete number with now }) := by
  rw [pop]
  cases least : least? list.running with
  | none => exact Or.inl rfl
  | some timer =>
    by_cases due : timer.id.deadline ≤ limit
    · exact Or.inr ⟨_, _, _, isRunning_iff.mpr ⟨timer, (least?_spec least).1, rfl⟩, if_pos due⟩
    · exact Or.inl (if_neg due)

theorem Over.call {number : Nat} (past : list.Over number) (call : TimerCall α) :
    (keeping.call call list).2.Over number := by
  cases call with
  | schedule delay payload => exact past.add _ payload
  | scheduleAt deadline payload => exact past.add deadline payload
  | cancel other => exact past.delete other
  | popDue limit =>
    show (list.pop limit).2.Over number
    rcases list.pop_cases limit with same | ⟨other, payload, now, _, same⟩
    · rw [same]
      exact past
    · rw [same]
      exact past.delete other
  | advanceTo time => exact past

theorem Proper.call (proper : list.Proper) (call : TimerCall α) :
    (keeping.call call list).2.Proper := by
  cases call with
  | schedule delay payload => exact proper.add _ payload
  | scheduleAt deadline payload => exact proper.add deadline payload
  | cancel number => exact proper.delete number
  | popDue limit =>
    show (list.pop limit).2.Proper
    rcases list.pop_cases limit with same | ⟨number, payload, now, _, same⟩
    · rw [same]
      exact proper
    · rw [same]
      exact ⟨(proper.delete number).numbered, (proper.delete number).distinct⟩
  | advanceTo time => exact ⟨proper.numbered, proper.distinct⟩

/-- What fires or is stopped by a call has run until then, and runs no more. -/
theorem Proper.ends_spec (proper : list.Proper) {call : TimerCall α} {number : Nat}
    {seen : TimerView}
    (ends : (TimerRecord.mk call (keeping.call call list).1 seen).ends? = some number) :
    list.isRunning number = true ∧ (keeping.call call list).2.Over number := by
  cases call with
  | cancel other =>
    cases runs : list.isRunning other with
    | true =>
      simp only [keeping, runs, TimerRecord.ends?, Option.some.injEq] at ends
      subst ends
      exact ⟨runs, proper.over_delete runs⟩
    | false =>
      simp only [keeping, runs, TimerRecord.ends?, TimerRecord.fires?] at ends
      cases ends
  | popDue limit =>
    rcases list.pop_cases limit with same | ⟨other, payload, now, runs, same⟩
    · simp only [keeping, same, TimerRecord.ends?, TimerRecord.fires?] at ends
      cases ends
    · simp only [keeping, same, TimerRecord.ends?, TimerRecord.fires?] at ends ⊢
      cases ends
      exact ⟨runs, proper.over_delete runs⟩
  | schedule delay payload => cases ends
  | scheduleAt deadline payload => cases ends
  | advanceTo time => cases ends

theorem Proper.not_ends_of_over (proper : list.Proper) {number : Nat} (past : list.Over number)
    (calls : List (TimerCall α)) :
    ∀ record ∈ keeping.record list calls, record.ends? ≠ some number := by
  induction calls generalizing list with
  | nil => exact fun record member => by cases member
  | cons call rest ih =>
    intro record member ends
    rcases List.mem_cons.mp member with rfl | later
    · exact Bool.eq_false_iff.mp past.2 (proper.ends_spec ends).1
    · exact ih (proper.call call) (past.call call) record later ends

/-- A timer that has fired or was stopped neither fires nor is stopped later. -/
theorem Proper.ends_once (proper : list.Proper) (calls : List (TimerCall α)) :
    (keeping.record list calls).Pairwise fun earlier later =>
      ∀ number, earlier.ends? = some number → later.ends? ≠ some number := by
  induction calls generalizing list with
  | nil => exact .nil
  | cons call rest ih =>
    refine List.pairwise_cons.mpr ⟨fun later member number ends => ?_, ih (proper.call call)⟩
    exact (proper.call call).not_ends_of_over (proper.ends_spec ends).2 rest later member

end TimerList

end NamedData
