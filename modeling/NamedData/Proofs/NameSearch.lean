import NamedData.NameTable

namespace NamedData

namespace Name

variable {under name longer : Name}

/-- The order of a dictionary: the first component that differs decides, by the first
byte that differs, and what ends first comes first. -/
def Before (a b : Name) : Prop := List.Lex (List.Lex (· < ·)) a.components b.components

theorem compare_eq_lt_iff_lex {α : Type} [Ord α] [Std.LawfulEqOrd α] {less : α → α → Prop}
    (before : ∀ a b : α, compare a b = .lt ↔ less a b) (left right : List α) :
    compare left right = .lt ↔ List.Lex less left right := by
  induction left generalizing right with
  | nil =>
    cases right with
    | nil => exact ⟨fun same => (by cases same), fun same => (by cases same)⟩
    | cons => exact ⟨fun _ => .nil, fun _ => rfl⟩
  | cons first rest ih =>
    cases right with
    | nil => exact ⟨fun same => (by cases same), fun same => (by cases same)⟩
    | cons first' rest' =>
      rw [List.compare_cons_cons, Ordering.then_eq_lt, before, Std.compare_eq_iff_eq, ih]
      constructor
      · rintro (differ | ⟨rfl, later⟩)
        · exact .rel differ
        · exact .cons later
      · intro lex
        cases lex with
        | rel differ => exact Or.inl differ
        | cons later => exact Or.inr ⟨rfl, later⟩

theorem compare_eq_lt_iff : compare under name = .lt ↔ under.Before name :=
  compare_eq_lt_iff_lex (compare_eq_lt_iff_lex fun _ _ => Std.compare_eq_lt) _ _

/-- What lies between a list and one that extends it extends it too. -/
theorem prefix_of_between {α : Type} [Ord α] [Std.TransOrd α] [Std.LawfulEqOrd α]
    {shorter middle longer : List α} (low : (compare shorter middle).isLE = true)
    (high : (compare middle longer).isLE = true) (under : shorter <+: longer) :
    shorter <+: middle := by
  induction shorter generalizing middle longer with
  | nil => exact List.nil_prefix
  | cons first rest ih =>
    obtain ⟨more, rfl⟩ := under
    cases middle with
    | nil => cases low
    | cons first' rest' =>
      rw [List.cons_append, List.compare_cons_cons] at high
      rw [List.compare_cons_cons] at low
      cases order : compare first first' with
      | gt =>
        rw [order] at low
        cases low
      | lt =>
        rw [Std.OrientedOrd.eq_swap, order] at high
        cases high
      | eq =>
        cases Std.compare_eq_iff_eq.mp order
        rw [order] at low high
        exact List.cons_prefix_cons.mpr ⟨rfl, ih low high (List.prefix_append _ _)⟩

/-- Names that extend a name follow it without a gap. -/
theorem isPrefixOf_of_between (low : (compare under name).isLE = true)
    (high : (compare name longer).isLE = true) (extends' : under.isPrefixOf longer = true) :
    under.isPrefixOf name = true := by
  rw [isPrefixOf, List.isPrefixOf_iff_prefix] at extends' ⊢
  exact prefix_of_between low high extends'

/-- A name comes before those that extend it. -/
theorem isLE_of_isPrefixOf (extends' : under.isPrefixOf name = true) :
    (compare under name).isLE = true := by
  rw [isPrefixOf, List.isPrefixOf_iff_prefix] at extends'
  obtain ⟨more, same⟩ := extends'
  rw [compare_def, ← same]
  generalize under.components = shorter
  induction shorter with
  | nil => exact List.isLE_compare_nil_left
  | cons first rest ih =>
    rw [List.cons_append, List.compare_cons_cons, Std.ReflOrd.compare_self]
    exact ih

end Name

namespace NameTable

open Std.DTreeMap.Internal (Impl)

variable {α : Type} {table : NameTable α} {row : Name × α} {under : Name} {wanted : α → Bool}
  {value : α}

theorem getElem?_insert (table : NameTable α) (key name : Name) (value : α) :
    (table.insert key value)[name]? = if key = name then some value else table[name]? := by
  simp only [Std.ExtTreeMap.getElem?_insert, Std.compare_eq_iff_eq]

theorem getElem?_erase (table : NameTable α) (key name : Name) :
    (table.erase key)[name]? = if key = name then none else table[name]? := by
  simp only [Std.ExtTreeMap.getElem?_erase, Std.compare_eq_iff_eq]

theorem getEntryGT?_eq_find? (table : NameTable α) (key : Name) :
    table.getEntryGT? key = table.toList.find? fun row => (compare row.1 key).isGT := by
  obtain ⟨inner⟩ := table
  induction inner with
  | mk tree =>
    show Impl.Const.getEntryGT? key tree.inner = (Impl.Const.toList tree.inner).find? _
    rw [Impl.Const.getEntryGT?_eq_map, Impl.getEntryGT?_eq_find? tree.wf.ordered,
      Impl.Const.toList_eq_toListModel_map, List.find?_map]
    rfl

theorem getEntryGE?_eq_find? (table : NameTable α) (key : Name) :
    table.getEntryGE? key = table.toList.find? fun row => (compare row.1 key).isGE := by
  obtain ⟨inner⟩ := table
  induction inner with
  | mk tree =>
    show Impl.Const.getEntryGE? key tree.inner = (Impl.Const.toList tree.inner).find? _
    rw [Impl.Const.getEntryGE?_eq_map, Impl.getEntryGE?_eq_find? tree.wf.ordered,
      Impl.Const.toList_eq_toListModel_map, List.find?_map]
    rfl

theorem values_eq_map_toList (table : NameTable α) : table.values = table.toList.map (·.2) := by
  obtain ⟨inner⟩ := table
  induction inner with
  | mk tree =>
    show Impl.values tree.inner = (Impl.Const.toList tree.inner).map (·.2)
    rw [Impl.values_eq_map_snd, Impl.Const.toList_eq_toListModel_map, List.map_map]
    rfl

/-- The rows of a table stand in the order of their names. -/
theorem ordered_toList (table : NameTable α) :
    table.toList.Pairwise fun a b => compare a.1 b.1 = .lt :=
  Std.ExtTreeMap.ordered_keys_toList

/-- The row after a row is the next in the list. -/
theorem getEntryGT?_eq_head? {front rear : List (Name × α)} {name : Name}
    (split : table.toList = front ++ (name, value) :: rear) :
    table.getEntryGT? name = rear.head? := by
  have ordered := table.ordered_toList
  rw [split, List.pairwise_append, List.pairwise_cons] at ordered
  obtain ⟨_, ⟨above, _⟩, below⟩ := ordered
  have passed : (front ++ [(name, value)]).find? (fun row => (compare row.1 name).isGT) = none := by
    refine List.find?_eq_none.mpr fun row member => ?_
    rcases List.mem_append.mp member with earlier | here
    · rw [below row earlier _ List.mem_cons_self]
      decide
    · rw [List.mem_singleton.mp here, Std.ReflOrd.compare_self]
      decide
  rw [getEntryGT?_eq_find?, split, List.append_cons, List.find?_append, passed, Option.none_or]
  cases rear with
  | nil => rfl
  | cons next _ =>
    refine List.find?_cons_of_pos ?_
    rw [Std.OrientedOrd.eq_swap, above next List.mem_cons_self]
    rfl

/-- A search that starts at a row goes through the rows from there on as long as their
names extend the one that is looked for, and those are all that do. -/
theorem firstUnder_eq_find? {front rear : List (Name × α)} {count : Nat}
    (split : table.toList = front ++ rear) (enough : rear.length ≤ count)
    (start : ∀ row ∈ rear, (compare under row.1).isLE = true) :
    firstUnder table under wanted count rear.head? =
      (rear.find? fun row => under.isPrefixOf row.1 && wanted row.2).map (·.2) := by
  induction rear generalizing front count with
  | nil => cases count <;> rfl
  | cons row rest ih =>
    obtain ⟨name, value⟩ := row
    obtain ⟨count, rfl⟩ : ∃ less, count = less + 1 := ⟨count - 1, by simp at enough; omega⟩
    rw [List.head?_cons, firstUnder]
    cases extends' : under.isPrefixOf name with
    | false =>
      -- No name past this one extends it either.
      have ordered := table.ordered_toList
      rw [split, List.pairwise_append, List.pairwise_cons] at ordered
      have nothing : ((name, value) :: rest).find?
          (fun row => under.isPrefixOf row.1 && wanted row.2) = none := by
        refine List.find?_eq_none.mpr fun later member passes => ?_
        have passes' := (Bool.and_eq_true_iff.mp passes).1
        rcases List.mem_cons.mp member with rfl | member
        · rw [extends'] at passes'
          cases passes'
        · have above := ordered.2.1.1 later member
          rw [Name.isPrefixOf_of_between (start _ List.mem_cons_self) (by rw [above]; rfl) passes']
            at extends'
          cases extends'
      rw [nothing]
      rfl
    | true =>
      cases passes : wanted value with
      | true =>
        rw [List.find?_cons_of_pos (by rw [extends', passes]; rfl)]
        rfl
      | false =>
        rw [List.find?_cons_of_neg (by rw [extends', passes]; decide)]
        rw [getEntryGT?_eq_head? split]
        exact ih (by rw [split, List.append_cons]) (Nat.le_of_succ_le_succ enough)
          fun row member => start row (List.mem_cons_of_mem _ member)

/-- The first row from a name on parts the rows before the name from the others. -/
theorem getEntryGE?_eq_head? (table : NameTable α) (under : Name) : ∃ front rear,
    table.toList = front ++ rear ∧ table.getEntryGE? under = rear.head? ∧
      (∀ row ∈ front, compare row.1 under = .lt) ∧
      ∀ row ∈ rear, (compare under row.1).isLE = true := by
  have below {row : Name × α} (early : ¬ (compare row.1 under).isGE = true) :
      compare row.1 under = .lt := by
    cases order : compare row.1 under <;> simp [order] at early ⊢
  rw [getEntryGE?_eq_find?]
  cases found : table.toList.find? fun row => (compare row.1 under).isGE with
  | none =>
    exact ⟨table.toList, [], (List.append_nil _).symm, rfl,
      fun row member => below (List.find?_eq_none.mp found row member), nofun⟩
  | some first =>
    obtain ⟨here, front, rear, split, early⟩ := List.find?_eq_some_iff_append.mp found
    have low : (compare under first.1).isLE = true := by
      rw [Std.OrientedOrd.eq_swap, Ordering.isLE_swap]
      exact here
    have ordered := table.ordered_toList
    rw [split, List.pairwise_append, List.pairwise_cons] at ordered
    refine ⟨front, first :: rear, split, rfl,
      fun row member => below (by simpa using early row member), fun row member => ?_⟩
    rcases List.mem_cons.mp member with rfl | later
    · exact low
    · exact Std.TransOrd.isLE_trans low (by rw [ordered.2.1.1 row later]; rfl)

/-- What is found under a name is the value of the first row, of all in the table, whose
name extends it and that passes the test. -/
theorem findUnder?_eq_find? (table : NameTable α) (under : Name) (wanted : α → Bool) :
    table.findUnder? under wanted =
      (table.toList.find? fun row => under.isPrefixOf row.1 && wanted row.2).map (·.2) := by
  obtain ⟨front, rear, split, first, below, above⟩ := table.getEntryGE?_eq_head? under
  have passed : front.find? (fun row => under.isPrefixOf row.1 && wanted row.2) = none := by
    refine List.find?_eq_none.mpr fun row member passes => ?_
    have low := Name.isLE_of_isPrefixOf (Bool.and_eq_true_iff.mp passes).1
    rw [Std.OrientedOrd.eq_swap, below row member] at low
    cases low
  have enough : rear.length ≤ table.size := by
    rw [← Std.ExtTreeMap.length_toList, split, List.length_append]
    exact Nat.le_add_left _ _
  rw [findUnder?, first, firstUnder_eq_find? split enough above, split, List.find?_append,
    passed, Option.none_or]

/-- What is found under a name has the least of the names that extend it and whose
values pass the test. -/
theorem findUnder?_eq_some_iff : table.findUnder? under wanted = some value ↔
    ∃ name, table[name]? = some value ∧ under.isPrefixOf name = true ∧ wanted value = true ∧
      ∀ (other : Name) (value' : α), table[other]? = some value' →
        under.isPrefixOf other = true → wanted value' = true → other = name ∨ name.Before other := by
  have least {value : α} (found : table.findUnder? under wanted = some value) :
      ∃ name, table[name]? = some value ∧ under.isPrefixOf name = true ∧ wanted value = true ∧
        ∀ (other : Name) (value' : α), table[other]? = some value' →
          under.isPrefixOf other = true → wanted value' = true → other = name ∨ name.Before other := by
    rw [findUnder?_eq_find?] at found
    obtain ⟨row, first, rfl⟩ := Option.map_eq_some_iff.mp found
    obtain ⟨passes, front, rear, split, early⟩ := List.find?_eq_some_iff_append.mp first
    obtain ⟨extends', passes'⟩ := Bool.and_eq_true_iff.mp passes
    have here : row ∈ table.toList := List.mem_of_find?_eq_some first
    have ordered := table.ordered_toList
    rw [split, List.pairwise_append, List.pairwise_cons] at ordered
    refine ⟨row.1, Std.ExtTreeMap.mem_toList_iff_getElem?_eq_some.mp here, extends', passes',
      fun other value' present under' wanted' => ?_⟩
    have listed := Std.ExtTreeMap.mem_toList_iff_getElem?_eq_some.mpr present
    rw [split] at listed
    rcases List.mem_append.mp listed with before | after
    · have fails := early _ before
      rw [under', wanted'] at fails
      cases fails
    · rcases List.mem_cons.mp after with same | later
      · exact Or.inl (congrArg Prod.fst same)
      · exact Or.inr (Name.compare_eq_lt_iff.mp (ordered.2.1.1 _ later))
  refine ⟨least, fun ⟨name, present, extends', passes, lowest⟩ => ?_⟩
  cases found : table.findUnder? under wanted with
  | none =>
    rw [findUnder?_eq_find?, Option.map_eq_none_iff, List.find?_eq_none] at found
    have fails := found _ (Std.ExtTreeMap.mem_toList_iff_getElem?_eq_some.mpr present)
    rw [extends', passes] at fails
    exact absurd rfl fails
  | some value' =>
    obtain ⟨name', present', extends'', passes', lowest'⟩ := least found
    -- Two least names are one.
    have same : name' = name := by
      rcases lowest' name value present extends' passes with same | after
      · exact same.symm
      · rcases lowest name' value' present' extends'' passes' with same | before
        · exact same
        · rw [← Name.compare_eq_lt_iff] at after before
          rw [Std.OrientedOrd.eq_swap, before] at after
          cases after
    rw [← present', same, present]

theorem findUnder?_eq_none_iff : table.findUnder? under wanted = none ↔
    ∀ (name : Name) (value : α), table[name]? = some value → under.isPrefixOf name = true →
      wanted value = false := by
  rw [findUnder?_eq_find?, Option.map_eq_none_iff, List.find?_eq_none]
  constructor
  · intro fails name value present extends'
    have fails' := fails _ (Std.ExtTreeMap.mem_toList_iff_getElem?_eq_some.mpr present)
    rw [extends', Bool.true_and] at fails'
    exact Bool.eq_false_iff.mpr fails'
  · intro fails row listed passes
    obtain ⟨extends', passes'⟩ := Bool.and_eq_true_iff.mp passes
    rw [fails _ _ (Std.ExtTreeMap.mem_toList_iff_getElem?_eq_some.mp listed) extends'] at passes'
    cases passes'

end NameTable

end NamedData
