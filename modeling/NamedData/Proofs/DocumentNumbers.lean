import Mathlib.Logic.Basic
import NamedData.Scenario.Format
import NamedData.Proofs.Rounding

namespace NamedData

/-- All numbers with a fraction in a document are such that 64 bits can hold them. -/
inductive Document.Rounded : Document → Prop
  | null : Rounded .null
  | boolean (value : Bool) : Rounded (.boolean value)
  | integer (value : Int) : Rounded (.integer value)
  | float {value : Binary64} (canonical : value.IsCanonical) : Rounded (.float value)
  | text (value : String) : Rounded (.text value)
  | moment : Rounded .moment
  | unreadable : Rounded .unreadable
  | sequence {items : List Document} (each : ∀ item ∈ items, Rounded item) :
      Rounded (.sequence items)
  | table {entries : List (String × Document)} (each : ∀ entry ∈ entries, Rounded entry.2) :
      Rounded (.table entries)

theorem mem_of_lookup {α : Type} {key : String} {value : α} {entries : List (String × α)}
    (found : entries.lookup key = some value) : (key, value) ∈ entries := by
  obtain ⟨before, later, rfl, _⟩ := List.lookup_eq_some_iff.mp found
  exact List.mem_append_right before List.mem_cons_self

namespace Toml

variable {read : ValueReader} {text rest : List Char} {value : Document} {negative : Bool}

theorem rounded_of_integer? {magnitude : Nat} (made : integer? negative magnitude = some value) :
    value.Rounded := by
  unfold integer? at made
  split at made
  · split at made <;> cases made
    exact .integer _
  · split at made <;> cases made
    exact .integer _

theorem rounded_of_readBased? {base : Nat} {isDigit : Char → Bool}
    (done : readBased? base isDigit text = some (value, rest)) : value.Rounded := by
  obtain ⟨_, _, done⟩ := Option.bind_eq_some_iff.mp done
  obtain ⟨number, made, done⟩ := Option.bind_eq_some_iff.mp done
  cases done
  exact rounded_of_integer? made

theorem rounded_of_readDecimal? (done : readDecimal? text = some (value, rest)) :
    value.Rounded := by
  obtain ⟨_, _, done⟩ := Option.bind_eq_some_iff.mp done
  rcases ite_eq_iff.mp done with ⟨_, done⟩ | ⟨_, done⟩
  · obtain ⟨_, _, done⟩ := Option.bind_eq_some_iff.mp done
    rcases ite_eq_iff.mp done with ⟨_, done⟩ | ⟨_, done⟩
    · cases done
    · cases done
      exact .float (Binary64.isCanonical_ofDecimal _ _)
  · obtain ⟨number, made, done⟩ := Option.bind_eq_some_iff.mp done
    cases done
    exact rounded_of_integer? made

theorem rounded_of_readSpecial? (done : readSpecial? text = some (value, rest)) :
    value.Rounded := by
  unfold readSpecial? at done
  dsimp only at done
  split at done <;> cases done
  · exact .float .infinite
  · exact .float .nan

theorem rounded_of_readNumeric? (done : readNumeric? text = some (value, rest)) :
    value.Rounded := by
  unfold readNumeric? at done
  split at done
  · cases done
    exact .moment
  split at done
  · exact rounded_of_readBased? done
  · exact rounded_of_readBased? done
  · exact rounded_of_readBased? done
  split at done
  · rename_i special
    cases done
    exact rounded_of_readSpecial? special
  · exact rounded_of_readDecimal? done

/-- What is read off the front of any text is rounded. -/
def Rounds (read : ValueReader) : Prop :=
  ∀ {text rest : List Char} {value : Document}, read text = some (value, rest) → value.Rounded

theorem Rounds.items (rounds : Rounds read) {bound : Nat} {items : List Document}
    (done : readItems? read bound text = some (items, rest)) : ∀ item ∈ items, item.Rounded := by
  induction bound generalizing text items rest with
  | zero => cases done
  | succ bound ih =>
    rw [readItems?] at done
    split at done
    · cases done
      exact nofun
    · obtain ⟨⟨item, after⟩, first, done⟩ := Option.bind_eq_some_iff.mp done
      dsimp only at done
      split at done
      · obtain ⟨⟨others, _⟩, more, done⟩ := Option.bind_eq_some_iff.mp done
        cases done
        exact List.forall_mem_cons.mpr ⟨rounds first, ih more⟩
      · cases done
        exact List.forall_mem_singleton.mpr (rounds first)
      · cases done

theorem Rounds.assignment (rounds : Rounds read) {assignment : Assignment}
    (done : readAssignment? read text = some (assignment, rest)) : assignment.value.Rounded := by
  unfold readAssignment? at done
  split at done
  · obtain ⟨⟨value, _⟩, first, same⟩ := Option.map_eq_some_iff.mp done
    cases same
    exact rounds first
  · cases done

theorem Rounds.inline (rounds : Rounds read) {bound : Nat} {assignments : List Assignment}
    (done : readInline? read bound text = some (assignments, rest)) :
    ∀ assignment ∈ assignments, assignment.value.Rounded := by
  induction bound generalizing text assignments rest with
  | zero => cases done
  | succ bound ih =>
    rw [readInline?] at done
    obtain ⟨⟨assignment, after⟩, first, done⟩ := Option.bind_eq_some_iff.mp done
    dsimp only at done
    split at done
    · obtain ⟨⟨others, _⟩, more, done⟩ := Option.bind_eq_some_iff.mp done
      cases done
      exact List.forall_mem_cons.mpr ⟨rounds.assignment first, ih more⟩
    · cases done
      exact List.forall_mem_singleton.mpr (rounds.assignment first)
    · cases done

namespace Node

/-- The values in a table in the making are rounded. -/
inductive Rounded : Node → Prop
  | value {document : Document} (rounded : document.Rounded) : Rounded (.value document)
  | table {mentioned dotted : Bool} {entries : List (String × Node)}
      (each : ∀ entry ∈ entries, Rounded entry.2) : Rounded (.table mentioned dotted entries)
  | tables {elements : List Node} (each : ∀ element ∈ elements, Rounded element) :
      Rounded (.tables elements)

variable {node after child : Node} {key : String} {entries : List (String × Node)}
  {mentioned dotted : Bool}

theorem documentEntries_eq_map (entries : List (String × Node)) :
    documentEntries entries = entries.map fun entry => (entry.1, document entry.2) := by
  induction entries with
  | nil => rfl
  | cons first rest ih => rw [documentEntries, ih, List.map_cons]

theorem documentItems_eq_map (elements : List Node) :
    documentItems elements = elements.map document := by
  induction elements with
  | nil => rfl
  | cons first rest ih => rw [documentItems, ih, List.map_cons]

theorem Rounded.document (rounded : node.Rounded) : node.document.Rounded := by
  induction rounded with
  | value rounded => exact rounded
  | table _ ih =>
    rw [Node.document, documentEntries_eq_map]
    exact .table (List.forall_mem_map.mpr ih)
  | tables _ ih =>
    rw [Node.document, documentItems_eq_map]
    exact .sequence (List.forall_mem_map.mpr ih)

theorem mem_replace {entry : String × Node} (member : entry ∈ replace key node entries) :
    entry = (key, node) ∨ entry ∈ entries := by
  induction entries with
  | nil => exact Or.inl (List.mem_singleton.mp member)
  | cons first rest ih =>
    rw [replace] at member
    split at member
    · rcases List.mem_cons.mp member with new | old
      · exact Or.inl new
      · exact Or.inr (List.mem_cons_of_mem _ old)
    · rcases List.mem_cons.mp member with same | later
      · exact Or.inr (same ▸ List.mem_cons_self)
      · exact (ih later).imp_right (List.mem_cons_of_mem _)

theorem Rounded.extended {elements : List Node} (all : ∀ element ∈ elements, element.Rounded)
    (rounded : child.Rounded) : (Node.tables (elements ++ [child])).Rounded :=
  .tables (List.forall_mem_append.mpr ⟨all, List.forall_mem_singleton.mpr rounded⟩)

section Table

variable (each : ∀ entry ∈ entries, entry.2.Rounded)

include each

theorem Rounded.found (found : entries.lookup key = some node) : node.Rounded :=
  each _ (mem_of_lookup found)

theorem Rounded.added (rounded : child.Rounded) :
    (Node.table mentioned dotted (entries ++ [(key, child)])).Rounded :=
  .table (List.forall_mem_append.mpr ⟨each, List.forall_mem_singleton.mpr rounded⟩)

theorem Rounded.replaced (rounded : child.Rounded) :
    (Node.table mentioned dotted (replace key child entries)).Rounded := by
  refine .table fun entry member => ?_
  rcases mem_replace member with rfl | old
  · exact rounded
  · exact each entry old

end Table

theorem Rounded.within {change : Node → Option Node} {deep : Bool} {path : List String}
    (keeps : ∀ {node after : Node}, node.Rounded → change node = some after → after.Rounded)
    (rounded : node.Rounded) (done : within deep path change node = some after) :
    after.Rounded := by
  induction path generalizing node after with
  | nil => exact keeps rounded done
  | cons key path ih =>
    cases rounded with
    | value => cases done
    | tables => cases done
    | @table mentioned own entries each =>
      rw [Node.within] at done
      split at done
      · obtain ⟨child, made, rfl⟩ := Option.map_eq_some_iff.mp done
        exact .added each (ih (.table (List.forall_mem_nil _)) made)
      · cases done
      · rename_i elements found
        split at done
        · cases done
        · rename_i last isLast
          obtain ⟨child, made, rfl⟩ := Option.map_eq_some_iff.mp done
          cases Rounded.found each found with
          | tables all =>
            have others : ∀ element ∈ elements.dropLast, element.Rounded := fun element member =>
              all element (List.dropLast_subset _ member)
            have changed := ih (all last (List.mem_of_getLast? isLast)) made
            exact .replaced each (.extended others changed)
      · rename_i below belowDotted inner found
        split at done
        · cases done
        · obtain ⟨child, made, rfl⟩ := Option.map_eq_some_iff.mp done
          exact .replaced each (ih (Rounded.found each found) made)

theorem Rounded.assign (rounded : node.Rounded) {assignment : Assignment}
    (value : assignment.value.Rounded) (done : node.assign assignment = some after) :
    after.Rounded := by
  refine rounded.within (fun {target changed} rounded done => ?_) done
  cases rounded with
  | value => cases done
  | tables => cases done
  | table each =>
    dsimp only at done
    split at done
    · cases done
    · cases done
      exact .added each (.value value)

/-- Step by step a table stays rounded, as long as all that is added is. -/
theorem Rounded.foldlM {α : Type} {step : Node → α → Option Node} {Holds : α → Prop}
    {parts : List α} (rounded : node.Rounded) (hold : ∀ part ∈ parts, Holds part)
    (done : parts.foldlM step node = some after)
    (keeps : ∀ {node after : Node} {part : α}, node.Rounded → Holds part →
      step node part = some after → after.Rounded) : after.Rounded := by
  induction parts generalizing node with
  | nil =>
    cases done
    exact rounded
  | cons first rest ih =>
    obtain ⟨next, here, done⟩ := Option.bind_eq_some_iff.mp done
    obtain ⟨holds, others⟩ := List.forall_mem_cons.mp hold
    exact ih (keeps rounded holds here) others done

theorem Rounded.assignAll (rounded : node.Rounded) {assignments : List Assignment}
    (values : ∀ assignment ∈ assignments, assignment.value.Rounded)
    (done : node.assignAll assignments = some after) : after.Rounded :=
  rounded.foldlM values done fun rounded value => rounded.assign value

end Node

/-- No text holds a number that 64 bits could not. Arrays and inline tables nest, and
values inside are read with a smaller depth. -/
theorem rounds_readValue? (depth : Nat) : Rounds (readValue? depth) := by
  induction depth using Nat.strongRecOn with
  | ind depth ih =>
    intro text rest value done
    rw [readValue?.eq_def] at done
    dsimp only at done
    split at done
    · obtain ⟨_, _, same⟩ := Option.map_eq_some_iff.mp done
      cases same
      exact .text _
    · obtain ⟨_, _, same⟩ := Option.map_eq_some_iff.mp done
      cases same
      exact .text _
    · cases done
      exact .boolean true
    · cases done
      exact .boolean false
    · split at done
      · cases done
      · rename_i depth
        obtain ⟨_, listed, same⟩ := Option.map_eq_some_iff.mp done
        cases same
        exact .sequence (Rounds.items (ih depth (Nat.lt_succ_self depth)) listed)
    · split at done
      · cases done
      · rename_i depth
        split at done
        · cases done
          exact .table (List.forall_mem_nil _)
        · obtain ⟨_, listed, done⟩ := Option.bind_eq_some_iff.mp done
          obtain ⟨node, assigned, done⟩ := Option.bind_eq_some_iff.mp done
          cases done
          have values := Rounds.inline (ih depth (Nat.lt_succ_self depth)) listed
          exact (Node.Rounded.assignAll (.table (List.forall_mem_nil _)) values assigned).document
    · exact rounded_of_readNumeric? done

/-- A statement assigns a rounded value, if any. -/
def Statement.Rounded : Statement → Prop
  | .assignment made => made.value.Rounded
  | _ => True

theorem rounded_of_readStatement? {statement : Statement}
    (done : readStatement? text = some (statement, rest)) : statement.Rounded := by
  unfold readStatement? at done
  split at done
  · split at done <;> cases done
    trivial
  · split at done <;> cases done
    trivial
  · obtain ⟨⟨assignment, _⟩, first, same⟩ := Option.map_eq_some_iff.mp done
    cases same
    exact Rounds.assignment (rounds_readValue? _) first

theorem rounded_of_readStatements? {bound : Nat} {statements : List Statement}
    (done : readStatements? bound text = some statements) :
    ∀ statement ∈ statements, statement.Rounded := by
  induction bound generalizing text statements with
  | zero => cases done
  | succ bound ih =>
    rw [readStatements?] at done
    split at done
    · cases done
      exact List.forall_mem_nil _
    · obtain ⟨_, first, done⟩ := Option.bind_eq_some_iff.mp done
      obtain ⟨_, _, done⟩ := Option.bind_eq_some_iff.mp done
      obtain ⟨_, more, done⟩ := Option.bind_eq_some_iff.mp done
      cases done
      exact List.forall_mem_cons.mpr ⟨rounded_of_readStatement? first, ih more⟩

theorem rounded_of_sections {statements : List Statement}
    (rounded : ∀ statement ∈ statements, statement.Rounded) :
    (∀ assignment ∈ (sections statements).1, assignment.value.Rounded) ∧
      ∀ part ∈ (sections statements).2, ∀ assignment ∈ part.assignments,
        assignment.value.Rounded := by
  induction statements with
  | nil => exact ⟨List.forall_mem_nil _, List.forall_mem_nil _⟩
  | cons first rest ih =>
    obtain ⟨here, others⟩ := List.forall_mem_cons.mp rounded
    obtain ⟨before, below⟩ := ih others
    cases first with
    | assignment => exact ⟨List.forall_mem_cons.mpr ⟨here, before⟩, below⟩
    | table => exact ⟨List.forall_mem_nil _, List.forall_mem_cons.mpr ⟨before, below⟩⟩
    | nextTable => exact ⟨List.forall_mem_nil _, List.forall_mem_cons.mpr ⟨before, below⟩⟩

theorem Node.Rounded.fill {node after : Node} (rounded : node.Rounded) {key : String}
    {isNext : Bool} {assignments : List Assignment}
    (values : ∀ assignment ∈ assignments, assignment.value.Rounded)
    (done : fill key isNext assignments node = some after) : after.Rounded := by
  cases rounded with
  | value => cases done
  | tables => cases done
  | @table mentioned dotted entries each =>
    have fresh {made : Node} (assigned : Node.assignAll (.table false false []) assignments = some made) :
        made.Rounded :=
      Node.Rounded.assignAll (.table (List.forall_mem_nil _)) values assigned
    rw [Toml.fill] at done
    split at done
    · obtain ⟨made, assigned, done⟩ := Option.bind_eq_some_iff.mp done
      cases done
      refine .added each ?_
      split
      · exact .tables (List.forall_mem_singleton.mpr (fresh assigned))
      · exact fresh assigned
    · rename_i inner found
      split at done
      · cases done
      · obtain ⟨made, assigned, done⟩ := Option.bind_eq_some_iff.mp done
        cases done
        cases Node.Rounded.found each found with
        | table inside => exact .replaced each (.assignAll (.table inside) values assigned)
    · rename_i elements found
      split at done
      · obtain ⟨made, assigned, done⟩ := Option.bind_eq_some_iff.mp done
        cases done
        cases Node.Rounded.found each found with
        | tables all => exact .replaced each (.extended all (fresh assigned))
      · cases done
    · cases done

theorem Node.Rounded.addTo {root after : Node} (rounded : root.Rounded) {part : Section}
    (values : ∀ assignment ∈ part.assignments, assignment.value.Rounded)
    (done : part.addTo root = some after) : after.Rounded := by
  unfold Section.addTo at done
  split at done
  · exact rounded.within (fun rounded => rounded.fill values) done
  · exact rounded.within (fun rounded => rounded.fill values) done
  · cases done

theorem rounded_of_ofText? {source : String} {document : Document}
    (read : ofText? source = some document) : document.Rounded := by
  obtain ⟨statements, listed, read⟩ := Option.bind_eq_some_iff.mp read
  obtain ⟨values, parts⟩ := rounded_of_sections (rounded_of_readStatements? listed)
  obtain ⟨root, assigned, read⟩ := Option.bind_eq_some_iff.mp read
  obtain ⟨whole, filled, read⟩ := Option.bind_eq_some_iff.mp read
  cases read
  have begun : root.Rounded := .assignAll (.table (List.forall_mem_nil _)) values assigned
  exact (begun.foldlM parts filled fun rounded values => rounded.addTo values).document

end Toml

namespace Document

variable {document : Document} {members : Members} {surplus : Bool} {names : List String}
  {name : String}

theorem isCanonical_of_float? {value : Binary64} (rounded : document.Rounded)
    (read : document.float? = some value) : value.IsCanonical := by
  unfold float? at read
  split at read <;> cases read
  · cases rounded
    assumption
  · exact Binary64.isCanonical_ofInt _

theorem le_of_natural? {limit number : Nat} (read : document.natural? limit = some number) :
    number ≤ limit := by
  unfold natural? at read
  split at read
  · split at read <;> cases read
    omega
  · cases read

/-- The members of a record are parts of the document. -/
theorem rounded_of_members? (rounded : document.Rounded)
    (taken : document.members? surplus names = some members) :
    ∀ entry ∈ members.found, entry.2.Rounded := by
  unfold members? at taken
  split at taken
  · dsimp only at taken
    split at taken <;> cases taken
    cases rounded with
    | table each => exact fun entry member => each entry (List.mem_filter.mp member).1
  · split at taken <;> cases taken
    cases rounded with
    | sequence each => exact fun entry member => each entry.2 (List.of_mem_zip member).2
  · cases taken
    exact List.forall_mem_nil _
  · cases taken

theorem rounded_of_find? (rounded : ∀ entry ∈ members.found, entry.2.Rounded)
    (found : members.find? name = some document) : document.Rounded :=
  rounded (name, document) (mem_of_lookup found)

variable {α : Type} {read : Document → Option α}

theorem exists_of_withDefault {standIn value : α}
    (given : members.withDefault name standIn read = some value) :
    value = standIn ∨ ∃ document, members.find? name = some document ∧ read document = some value := by
  unfold Members.withDefault at given
  split at given
  · rename_i document found
    exact Or.inr ⟨document, found, given⟩
  · cases given
    exact Or.inl rfl

/-- What a list holds was read from one of its items. -/
theorem Rounded.exists_of_listOf? (rounded : document.Rounded) {values : List α}
    (listed : document.listOf? read = some values) :
    ∀ value ∈ values, ∃ item : Document, item.Rounded ∧ read item = some value := by
  obtain ⟨items, isItems, each⟩ := Option.bind_eq_some_iff.mp listed
  have rounds : ∀ item ∈ items, item.Rounded := by
    unfold items? at isItems
    split at isItems <;> cases isItems
    cases rounded
    assumption
  clear isItems listed
  induction items generalizing values with
  | nil =>
    cases each
    exact List.forall_mem_nil _
  | cons first rest ih =>
    rw [List.mapM_cons] at each
    obtain ⟨value, here, each⟩ := Option.bind_eq_some_iff.mp each
    obtain ⟨others, later, each⟩ := Option.bind_eq_some_iff.mp each
    cases each
    obtain ⟨rounded, below⟩ := List.forall_mem_cons.mp rounds
    exact List.forall_mem_cons.mpr ⟨⟨first, rounded, here⟩, ih later below⟩

end Document

theorem ConsumerSetting.isCanonical_of_ofDocument? {document : Document} {surplus : Bool}
    {setting : ConsumerSetting} (rounded : document.Rounded)
    (read : ofDocument? surplus document = some setting) : setting.frequency.IsCanonical := by
  obtain ⟨members, taken, read⟩ := Option.bind_eq_some_iff.mp read
  obtain ⟨node, _, read⟩ := Option.bind_eq_some_iff.mp read
  obtain ⟨under, _, read⟩ := Option.bind_eq_some_iff.mp read
  obtain ⟨frequency, given, read⟩ := Option.bind_eq_some_iff.mp read
  obtain ⟨lifetime, _, read⟩ := Option.bind_eq_some_iff.mp read
  obtain ⟨mustBeFresh, _, read⟩ := Option.bind_eq_some_iff.mp read
  obtain ⟨start, _, read⟩ := Option.bind_eq_some_iff.mp read
  cases read
  show frequency.IsCanonical
  rcases Document.exists_of_withDefault given with usual | ⟨number, found, isNumber⟩
  · rw [usual]
    exact Binary64.isCanonical_ofNat 10
  · have parts := Document.rounded_of_members? rounded taken
    exact Document.isCanonical_of_float? (Document.rounded_of_find? parts found) isNumber

namespace Scenario

variable {scenario : Scenario} {document : Document} {surplus : Bool}

theorem numbers_of_ofDocument? (rounded : document.Rounded)
    (read : ofDocument? surplus document = some scenario) :
    scenario.duration ≤ Document.wordLimit ∧
      ∀ setting ∈ scenario.consumers, setting.frequency.IsCanonical := by
  obtain ⟨members, taken, read⟩ := Option.bind_eq_some_iff.mp read
  obtain ⟨duration, lasts, read⟩ := Option.bind_eq_some_iff.mp read
  obtain ⟨forwarder, _, read⟩ := Option.bind_eq_some_iff.mp read
  obtain ⟨nodes, _, read⟩ := Option.bind_eq_some_iff.mp read
  obtain ⟨links, _, read⟩ := Option.bind_eq_some_iff.mp read
  obtain ⟨routes, _, read⟩ := Option.bind_eq_some_iff.mp read
  obtain ⟨consumers, given, read⟩ := Option.bind_eq_some_iff.mp read
  obtain ⟨producers, _, read⟩ := Option.bind_eq_some_iff.mp read
  cases read
  constructor
  · show duration ≤ Document.wordLimit
    rcases Document.exists_of_withDefault lasts with usual | ⟨number, _, isNumber⟩
    · rw [usual]
      decide
    · exact Document.le_of_natural? isNumber
  · rcases Document.exists_of_withDefault given with rfl | ⟨list, found, isList⟩
    · exact List.forall_mem_nil _
    · intro setting member
      have parts := Document.rounded_of_members? rounded taken
      obtain ⟨item, itemRounded, isItem⟩ :=
        (Document.rounded_of_find? parts found).exists_of_listOf? isList setting member
      exact ConsumerSetting.isCanonical_of_ofDocument? itemRounded isItem

/-- A scenario that was read from a text has passed its check. Its duration has 64 bits, and
its frequencies are such that 64 bits can hold them: those that were written, since they
were rounded, and the usual one. -/
theorem numbers_of_ofToml {text : String} (read : ofToml text = .ok scenario) :
    scenario.check = .ok () ∧ scenario.duration ≤ Document.wordLimit ∧
      ∀ setting ∈ scenario.consumers, setting.frequency.IsCanonical := by
  unfold ofToml at read
  split at read
  · cases read
  · rename_i made
    split at read
    · rename_i passed
      cases read
      obtain ⟨document, written, made⟩ := Option.bind_eq_some_iff.mp made
      exact ⟨passed, numbers_of_ofDocument? (Toml.rounded_of_ofText? written) made⟩
    · cases read

end Scenario

end NamedData
