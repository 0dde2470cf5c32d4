import Mathlib.Algebra.GroupWithZero.Nat
import Mathlib.Data.List.Nodup
import NamedData.Proofs.Moves

namespace NamedData

/-- A decimal digit can be read back from its byte. -/
theorem char_of_byte {digit : Char} (isDigit : digit.isDigit = true) :
    Char.ofNat (UInt8.ofNat digit.toNat).toNat = digit := by
  have low : digit.toNat ≤ 57 := by
    obtain ⟨_, upper⟩ := Bool.and_eq_true_iff.mp isDigit
    exact of_decide_eq_true upper
  rw [UInt8.toNat_ofNat', Nat.mod_eq_of_lt (by omega), Char.ofNat_toNat]

/-- The requests of a sequence have names of their own. -/
theorem Name.appendSequence_injective (name : Name) : Function.Injective name.appendSequence := by
  intro first other same
  have components := congrArg Name.components same
  have bytes := List.singleton_inj.mp (List.append_cancel_left components)
  have back (number : Nat) : ((Nat.toDigits 10 number).map fun digit => UInt8.ofNat digit.toNat).map
      (fun byte => Char.ofNat byte.toNat) = Nat.toDigits 10 number := by
    rw [List.map_map]
    refine (List.map_congr_left fun digit member => ?_).trans (List.map_id' _)
    exact char_of_byte (Nat.isDigit_of_mem_toDigits (by decide) (by decide) member)
  have digits : Nat.toDigits 10 first = Nat.toDigits 10 other := by
    rw [← back first, bytes, back other]
  have read := congrArg (Nat.ofDigitChars 10 · 0) digits
  simpa only [Nat.ofDigitChars_ten_toDigits] using read

namespace NameTable

variable {α : Type} {table : NameTable α} {gone : List Name}

theorem getElem?_eraseAll (name : Name) :
    (gone.foldl (fun table name => table.erase name) table)[name]? =
      if name ∈ gone then none else table[name]? := by
  induction gone generalizing table with
  | nil => exact (if_neg List.not_mem_nil).symm
  | cons first rest ih =>
    rw [List.foldl_cons, ih, Std.ExtTreeMap.getElem?_erase]
    by_cases later : name ∈ rest
    · rw [if_pos later, if_pos (List.mem_cons_of_mem _ later)]
    · by_cases here : first = name
      · rw [if_neg later, if_pos (Std.compare_eq_iff_eq.mpr here), if_pos (by rw [here]; exact List.mem_cons_self)]
      · rw [if_neg later, if_neg (fun same => here (Std.compare_eq_iff_eq.mp same)),
          if_neg (fun member => (List.mem_cons.mp member).elim (fun same => here same.symm) later)]

theorem size_eraseAll (distinct : gone.Nodup) (present : ∀ name ∈ gone, name ∈ table) :
    (gone.foldl (fun table name => table.erase name) table).size + gone.length = table.size := by
  induction gone generalizing table with
  | nil => rfl
  | cons first rest ih =>
    have here := present first List.mem_cons_self
    obtain ⟨new, distinct⟩ := List.nodup_cons.mp distinct
    have later := @ih (table.erase first) distinct fun name member => by
      refine Std.ExtTreeMap.mem_erase.mpr ⟨fun same => new ?_, present name (List.mem_cons_of_mem _ member)⟩
      rw [Std.compare_eq_iff_eq.mp same]
      exact member
    have some : table.size ≠ 0 := fun none => by
      have bare : table = ∅ := Std.ExtTreeMap.isEmpty_iff.mp (by
        rw [Std.ExtTreeMap.isEmpty_eq_size_beq_zero, none]; rfl)
      rw [bare] at here
      exact Std.ExtTreeMap.not_mem_empty here
    rw [Std.ExtTreeMap.size_erase, if_pos (Std.ExtTreeMap.contains_iff_mem.mpr here)] at later
    rw [List.foldl_cons, List.length_cons]
    omega

end NameTable

namespace Consumer

variable {consumer : Consumer} {now : Instant}

/-- An answer that counted: what it was for, when that was asked for, and when the
answer came. -/
structure Answer where
  name : Name
  asked : Instant
  answered : Instant

def Answer.wait (answer : Answer) : Duration := answer.answered - answer.asked

/-- The requests that a consumer makes in a turn, each with the time. -/
def asks (consumer : Consumer) : Turn → List (Name × Instant)
  | .issue now _ => [(consumer.under.appendSequence consumer.nextNumber, now)]
  | _ => []

/-- The answers that a consumer counts in a turn. -/
def answers (consumer : Consumer) : Turn → List Answer
  | .receive data now => (consumer.pending[data.name]?.map (⟨data.name, ·, now⟩)).toList
  | _ => []

/-- The requests that a consumer gives up in a turn. -/
def losses (consumer : Consumer) : Turn → List Name
  | .expire now => consumer.overdue now
  | _ => []

/-- What single turns bring, put together. -/
def throughout {α : Type} (brings : Consumer → Turn → List α) : Consumer → List Turn → List α
  | _, [] => []
  | consumer, turn :: rest => brings consumer turn ++ throughout brings (consumer.take turn) rest

/-- The counts of a consumer are those of the requests it made, the answers it took
and the requests it gave up. No request is both answered and given up, or one of
them twice, and the others still wait. -/
structure Accounts (consumer : Consumer) (asked : List (Name × Instant)) (answered : List Answer)
    (lost : List Name) : Prop where
  numbered : asked.map (·.1) = (List.range consumer.nextNumber).map consumer.under.appendSequence
  sent : consumer.sent = asked.length
  satisfied : consumer.satisfied = answered.length
  timedOut : consumer.timedOut = lost.length
  waited : consumer.waited = (answered.map (·.wait.nanos)).sum
  balanced : consumer.sent = consumer.satisfied + consumer.timedOut + consumer.pending.size
  answeredAsked : ∀ answer ∈ answered, (answer.name, answer.asked) ∈ asked
  lostAsked : ∀ name ∈ lost, name ∈ asked.map (·.1)
  pendingAsked : ∀ {name : Name} {time : Instant}, consumer.pending[name]? = some time →
    (name, time) ∈ asked
  once : (answered.map (·.name) ++ lost).Nodup
  closed : ∀ name ∈ answered.map (·.name) ++ lost, consumer.pending[name]? = none

theorem overdue_eq : consumer.overdue now = ((consumer.pending.toList.filter fun row =>
    !decide (now < row.2 + consumer.lifetime)).map (·.1)).reverse := by
  have collects (rows : List (Name × Instant)) (late : List Name) :
      rows.foldl (fun late row => if now < row.2 + consumer.lifetime then late else row.1 :: late)
        late = ((rows.filter fun row => !decide (now < row.2 + consumer.lifetime)).map (·.1)).reverse ++
          late := by
    induction rows generalizing late with
    | nil => rfl
    | cons first rest ih =>
      rw [List.foldl_cons, ih, List.filter_cons]
      by_cases waits : now < first.2 + consumer.lifetime <;> simp [waits]
  rw [overdue, Std.ExtTreeMap.foldl_eq_foldl_toList]
  exact (collects _ []).trans (List.append_nil _)

theorem mem_overdue {name : Name} : name ∈ consumer.overdue now ↔
    ∃ time, consumer.pending[name]? = some time ∧ ¬ now < time + consumer.lifetime := by
  rw [overdue_eq, List.mem_reverse, List.mem_map]
  constructor
  · rintro ⟨⟨name, time⟩, listed, rfl⟩
    obtain ⟨member, late⟩ := List.mem_filter.mp listed
    exact ⟨time, Std.ExtTreeMap.mem_toList_iff_getElem?_eq_some.mp member, by simpa using late⟩
  · rintro ⟨time, found, late⟩
    exact ⟨(name, time), List.mem_filter.mpr
      ⟨Std.ExtTreeMap.mem_toList_iff_getElem?_eq_some.mpr found, by simpa using late⟩, rfl⟩

theorem nodup_overdue : (consumer.overdue now).Nodup := by
  rw [overdue_eq, List.nodup_reverse]
  have distinct := @Std.ExtTreeMap.distinct_keys_toList _ _ _ consumer.pending _
  refine List.Pairwise.map _ (fun a b apart same => apart ?_) (distinct.filter _)
  exact Std.compare_eq_iff_eq.mpr same

variable {asked : List (Name × Instant)} {answered : List Answer} {lost : List Name}

theorem Accounts.distinct (accounts : consumer.Accounts asked answered lost) :
    (asked.map (·.1)).Nodup := by
  rw [accounts.numbered]
  exact List.nodup_range.map (Name.appendSequence_injective _)

/-- Whatever was answered or given up was asked for. -/
theorem Accounts.asked_of_closed (accounts : consumer.Accounts asked answered lost) {name : Name}
    (closed : name ∈ answered.map (·.name) ++ lost) : name ∈ asked.map (·.1) := by
  rcases List.mem_append.mp closed with satisfied | timedOut
  · obtain ⟨answer, member, rfl⟩ := List.mem_map.mp satisfied
    exact List.mem_map_of_mem (accounts.answeredAsked answer member)
  · exact accounts.lostAsked name timedOut

/-- The next request has a name that no request had before. -/
theorem Accounts.new (accounts : consumer.Accounts asked answered lost) :
    consumer.under.appendSequence consumer.nextNumber ∉ asked.map (·.1) := by
  rw [accounts.numbered]
  intro taken
  obtain ⟨number, earlier, same⟩ := List.mem_map.mp taken
  rw [Name.appendSequence_injective _ same] at earlier
  exact List.not_mem_range_self earlier

theorem Accounts.unasked (accounts : consumer.Accounts asked answered lost) :
    consumer.pending[consumer.under.appendSequence consumer.nextNumber]? = none := by
  cases found : consumer.pending[consumer.under.appendSequence consumer.nextNumber]? with
  | none => rfl
  | some time => exact absurd (List.mem_map_of_mem (accounts.pendingAsked found)) accounts.new

theorem Accounts.issue (accounts : consumer.Accounts asked answered lost) (now : Instant)
    (nonce : Nonce) : (consumer.issue now nonce).2.Accounts
      (asked ++ [(consumer.under.appendSequence consumer.nextNumber, now)]) answered lost := by
  obtain ⟨name, isName⟩ : ∃ name, name = consumer.under.appendSequence consumer.nextNumber := ⟨_, rfl⟩
  have new := accounts.new
  rw [← isName] at new ⊢
  have after (other : Name) : (consumer.issue now nonce).2.pending[other]? =
      if name = other then some now else consumer.pending[other]? := by
    show (consumer.pending.insert _ now)[other]? = _
    rw [← isName, Std.ExtTreeMap.getElem?_insert]
    exact if_congr Std.compare_eq_iff_eq rfl rfl
  have absent : consumer.pending.contains name = false := by
    rw [Std.ExtTreeMap.contains_eq_isSome_getElem?, isName, accounts.unasked]
    rfl
  refine ⟨?_, ?_, accounts.satisfied, accounts.timedOut, accounts.waited, ?_, ?_, ?_, ?_,
    accounts.once, ?_⟩
  · show _ = (List.range (consumer.nextNumber + 1)).map consumer.under.appendSequence
    rw [List.map_append, accounts.numbered, List.range_succ, List.map_append, isName]
    rfl
  · show consumer.sent + 1 = _
    rw [List.length_append, accounts.sent]
    rfl
  · have grown : (consumer.issue now nonce).2.pending.size = consumer.pending.size + 1 := by
      show (consumer.pending.insert _ now).size = _
      rw [← isName, Std.ExtTreeMap.size_insert, absent]
      rfl
    have balanced := accounts.balanced
    rw [grown]
    show consumer.sent + 1 = consumer.satisfied + consumer.timedOut + (consumer.pending.size + 1)
    omega
  · exact fun answer member => List.mem_append_left _ (accounts.answeredAsked answer member)
  · intro other member
    rw [List.map_append]
    exact List.mem_append_left _ (accounts.lostAsked other member)
  · intro other time found
    rw [after] at found
    split at found
    · rename_i same
      cases found
      exact List.mem_append_right _ (by rw [same]; exact List.mem_cons_self)
    · exact List.mem_append_left _ (accounts.pendingAsked found)
  · intro other member
    rw [after, if_neg]
    · exact accounts.closed other member
    · rintro rfl
      exact new (accounts.asked_of_closed member)

theorem Accounts.receive (accounts : consumer.Accounts asked answered lost) (data : Data)
    (now : Instant) : (consumer.receive data now).Accounts asked
      (answered ++ consumer.answers (.receive data now)) lost := by
  have counted : consumer.answers (.receive data now) =
      (consumer.pending[data.name]?.map (⟨data.name, ·, now⟩)).toList := rfl
  rw [counted]
  unfold Consumer.receive
  cases found : consumer.pending[data.name]? with
  | none =>
    rw [Option.map_none, Option.toList_none, List.append_nil]
    exact accounts
  | some time =>
    rw [Option.map_some, Option.toList_some]
    have known := accounts.pendingAsked found
    have open' : data.name ∉ answered.map (·.name) ++ lost := fun closed => by
      rw [accounts.closed _ closed] at found
      cases found
    have after (other : Name) : (consumer.pending.erase data.name)[other]? =
        if data.name = other then none else consumer.pending[other]? := by
      rw [Std.ExtTreeMap.getElem?_erase]
      exact if_congr Std.compare_eq_iff_eq rfl rfl
    refine ⟨accounts.numbered, accounts.sent, ?_, accounts.timedOut, ?_, ?_, ?_, accounts.lostAsked,
      ?_, ?_, ?_⟩
    · rw [List.length_append, ← accounts.satisfied]
      rfl
    · show consumer.waited + (now - time).nanos = _
      rw [List.map_append, List.sum_append, ← accounts.waited]
      rfl
    · have erased := NameTable.size_eraseAll (List.nodup_singleton data.name)
        fun name member => by
          rw [List.mem_singleton.mp member]
          exact Std.ExtTreeMap.mem_iff_isSome_getElem?.mpr (by rw [found]; rfl)
      have balanced := accounts.balanced
      show consumer.sent = consumer.satisfied + 1 + consumer.timedOut +
        (consumer.pending.erase data.name).size
      change (consumer.pending.erase data.name).size + 1 = _ at erased
      omega
    · intro answer member
      rcases List.mem_append.mp member with old | new
      · exact accounts.answeredAsked answer old
      · rw [List.mem_singleton.mp new]
        exact known
    · intro other since waits
      rw [after] at waits
      split at waits
      · cases waits
      · exact accounts.pendingAsked waits
    · rw [List.map_append, List.append_assoc]
      refine List.perm_middle.nodup_iff.mpr (List.nodup_cons.mpr ⟨open', accounts.once⟩)
    · intro other member
      rw [after]
      split
      · rfl
      · rename_i different
        rw [List.map_append, List.append_assoc] at member
        rcases List.mem_cons.mp (List.perm_middle.mem_iff.mp member) with new | old
        · exact absurd new.symm different
        · exact accounts.closed other old

theorem Accounts.expire (accounts : consumer.Accounts asked answered lost) (now : Instant) :
    (consumer.expire now).Accounts asked answered (lost ++ consumer.overdue now) := by
  have waits : ∀ name ∈ consumer.overdue now, ∃ time, consumer.pending[name]? = some time :=
    fun name member => (mem_overdue.mp member).imp fun _ both => both.1
  have fresh : ∀ name ∈ consumer.overdue now, name ∉ answered.map (·.name) ++ lost := by
    intro name member closed
    obtain ⟨time, found⟩ := waits name member
    rw [accounts.closed name closed] at found
    cases found
  refine ⟨accounts.numbered, accounts.sent, accounts.satisfied, ?_, accounts.waited, ?_,
    accounts.answeredAsked, ?_, ?_, ?_, ?_⟩
  · rw [List.length_append, ← accounts.timedOut]
    rfl
  · have erased := NameTable.size_eraseAll (@nodup_overdue consumer now) fun name member => by
      obtain ⟨time, found⟩ := waits name member
      exact Std.ExtTreeMap.mem_iff_isSome_getElem?.mpr (by rw [found]; rfl)
    have balanced := accounts.balanced
    show consumer.sent = consumer.satisfied + (consumer.timedOut + (consumer.overdue now).length) +
      ((consumer.overdue now).foldl (fun pending name => pending.erase name) consumer.pending).size
    omega
  · intro name member
    rcases List.mem_append.mp member with old | late
    · exact accounts.lostAsked name old
    · obtain ⟨time, found⟩ := waits name late
      exact List.mem_map_of_mem (accounts.pendingAsked found)
  · intro name time found
    rw [show (consumer.expire now).pending[name]? = _ from NameTable.getElem?_eraseAll name] at found
    split at found
    · cases found
    · exact accounts.pendingAsked found
  · rw [← List.append_assoc]
    refine List.nodup_append.mpr ⟨accounts.once, nodup_overdue, fun name closed other late same => ?_⟩
    rw [← same] at late
    exact fresh name late closed
  · intro name member
    rw [show (consumer.expire now).pending[name]? = _ from NameTable.getElem?_eraseAll name]
    rw [← List.append_assoc] at member
    rcases List.mem_append.mp member with old | late
    · split
      · rfl
      · exact accounts.closed name old
    · rw [if_pos late]

theorem Accounts.take (accounts : consumer.Accounts asked answered lost) (turn : Turn) :
    (consumer.take turn).Accounts (asked ++ consumer.asks turn) (answered ++ consumer.answers turn)
      (lost ++ consumer.losses turn) := by
  cases turn with
  | receive data now =>
    simp only [asks, losses, List.append_nil]
    exact accounts.receive data now
  | expire now =>
    simp only [asks, answers, List.append_nil]
    exact accounts.expire now
  | issue now nonce =>
    simp only [answers, losses, List.append_nil]
    exact accounts.issue now nonce

theorem Accounts.follow (accounts : consumer.Accounts asked answered lost) (turns : List Turn) :
    (consumer.follow turns).Accounts (asked ++ throughout asks consumer turns)
      (answered ++ throughout answers consumer turns) (lost ++ throughout losses consumer turns) := by
  induction turns generalizing consumer asked answered lost with
  | nil =>
    simp only [throughout, List.append_nil]
    exact accounts
  | cons turn rest ih =>
    simp only [throughout, ← List.append_assoc]
    exact ih (accounts.take turn)

end Consumer

end NamedData
