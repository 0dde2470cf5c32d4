import Mathlib.Data.List.Induction
import NamedData.Proofs.LongestPrefix
import NamedData.Proofs.NameSearch
import NamedData.Proofs.Validity

namespace NamedData

namespace Strategy

/-- The names that a check lets pass are those a strategy can be made of. -/
theorem exists_ofText_iff {text : String} :
    (∃ strategy, ofText text = .ok strategy) ↔ isKnown text = true := by
  simp only [isKnown, strategyNames, List.contains_iff_mem, List.mem_cons, List.not_mem_nil, or_false]
  constructor
  · rintro ⟨strategy, made⟩
    unfold ofText at made
    split at made
    · exact Or.inl ‹_›
    · split at made
      · exact Or.inr ‹_›
      · cases made
  · rintro (rfl | rfl)
    · exact ⟨.multicast, rfl⟩
    · exact ⟨.bestRoute 10, rfl⟩

theorem ofText_of_unknown {text : String} (unknown : isKnown text = false) :
    ofText text = .error (.unknown text) := by
  cases made : ofText text with
  | ok strategy =>
    rw [exists_ofText_iff.mp ⟨strategy, made⟩] at unknown
    cases unknown
  | error error =>
    unfold ofText at made
    split at made
    · cases made
    · split at made
      · cases made
      · exact made.symm

end Strategy

theorem StrategySetting.check_eq_ok_iff {setting : StrategySetting} :
    setting.check = .ok () ↔
      (∃ name, Name.ofUri setting.under = .ok name) ∧ Strategy.isKnown setting.strategy = true := by
  unfold check Strategy.isKnown
  cases Name.ofUri setting.under with
  | error error => exact iff_of_false nofun fun ⟨⟨_, parsed⟩, _⟩ => nomatch parsed
  | ok name =>
    cases strategyNames.contains setting.strategy <;> simp

namespace StrategyChoice

variable {choice next start : StrategyChoice} {name under : Name} {strategy : Strategy}
  {setting : StrategySetting} {choices : List StrategySetting}

/-- What is asked of a choice of strategies. -/
inductive Call where
  | insert (under : Name) (strategy : String)
  | erase (under : Name)

/-- A strategy that is not known leaves the choice as it is. -/
def call (choice : StrategyChoice) : Call → StrategyChoice
  | .insert under strategy => (choice.insert under strategy).toOption.getD choice
  | .erase under => choice.erase under

def afterCalls (choice : StrategyChoice) (calls : List Call) : StrategyChoice := calls.foldl call choice

/-- A call that gives a prefix another strategy, or takes its strategy away. -/
def Call.Changes : Call → Name → Prop
  | .insert name text, under => name = under ∧ Strategy.isKnown text = true
  | .erase name, under => name = under ∧ name ≠ Name.root

/-- A strategy was given to a prefix and not changed since. -/
def Chosen (history : List Call) (under : Name) (strategy : Strategy) : Prop :=
  ∃ earlier text later, history = earlier ++ .insert under text :: later ∧
    Strategy.ofText text = .ok strategy ∧ ∀ call ∈ later, ¬ call.Changes under

/-- The call that a setting stands for, when its prefix is a name. -/
def Call.ofSetting? (setting : StrategySetting) : Option Call :=
  (Name.ofUri setting.under).toOption.map (.insert · setting.strategy)

/-- All that is asked from the start on: multicast for the root, then the settings, then the
calls. -/
def history (choices : List StrategySetting) (calls : List Call) : List Call :=
  .insert .root "multicast" :: choices.filterMap Call.ofSetting? ++ calls

theorem chosen_concat {history : List Call} {last : Call} :
    Chosen (history ++ [last]) under strategy ↔
      (∃ text, last = .insert under text ∧ Strategy.ofText text = .ok strategy) ∨
        (¬ last.Changes under ∧ Chosen history under strategy) := by
  constructor
  · rintro ⟨earlier, text, later, split, made, kept⟩
    rcases List.eq_nil_or_concat later with rfl | ⟨between, final, rfl⟩
    · obtain ⟨_, same⟩ := List.append_inj' split rfl
      cases same
      exact Or.inl ⟨text, rfl, made⟩
    · have whole : history ++ [last] = (earlier ++ .insert under text :: between) ++ [final] := by
        rw [split]
        simp
      obtain ⟨rfl, same⟩ := List.append_inj' whole rfl
      cases same
      exact Or.inr ⟨kept last (by simp), earlier, text, between, rfl, made,
        fun call member => kept call (by simp [member])⟩
  · rintro (⟨text, rfl, made⟩ | ⟨unchanged, earlier, text, later, rfl, made, kept⟩)
    · exact ⟨history, text, [], rfl, made, nofun⟩
    · refine ⟨earlier, text, later ++ [last], by simp, made, fun call member => ?_⟩
      rcases List.mem_append.mp member with before | here
      · exact kept call before
      · rw [List.mem_singleton.mp here]
        exact unchanged

theorem insert_of_known {text : String} (made : Strategy.ofText text = .ok strategy) :
    choice.insert under text = .ok ⟨choice.table.insert under strategy⟩ := by
  rw [insert, made]

theorem insert_of_unknown {text : String} (unknown : Strategy.isKnown text = false) :
    choice.insert under text = .error (.unknown text) := by
  rw [insert, Strategy.ofText_of_unknown unknown]

theorem call_of_insert {text : String} (inserted : choice.insert under text = .ok next) :
    choice.call (.insert under text) = next := by
  rw [call, inserted]
  rfl

theorem isRoot_iff : name.isRoot = true ↔ name = Name.root := by
  rw [Name.isRoot, List.isEmpty_iff, Name.ext_iff]
  rfl

/-- What a call leaves under a prefix: what it gives to it, and without a change what was there. -/
theorem getElem?_call (choice : StrategyChoice) (call : Call) :
    (choice.call call).table[under]? = some strategy ↔
      (∃ text, call = .insert under text ∧ Strategy.ofText text = .ok strategy) ∨
        (¬ call.Changes under ∧ choice.table[under]? = some strategy) := by
  cases call with
  | insert name text =>
    cases known : Strategy.isKnown text with
    | false =>
      have refused : Strategy.ofText text = .error (.unknown text) := Strategy.ofText_of_unknown known
      rw [StrategyChoice.call, insert_of_unknown known]
      simp [Call.Changes, known, refused, Except.toOption]
    | true =>
      obtain ⟨made, isMade⟩ := Strategy.exists_ofText_iff.mpr known
      rw [call_of_insert (insert_of_known isMade), NameTable.getElem?_insert]
      by_cases here : name = under
      · simp [Call.Changes, here, known, isMade]
      · simp [Call.Changes, here]
  | erase name =>
    by_cases root : name = Name.root
    · rw [StrategyChoice.call, erase, if_pos (isRoot_iff.mpr root)]
      simp [Call.Changes, root]
    · have notRoot : ¬ name.isRoot = true := fun isRoot => root (isRoot_iff.mp isRoot)
      rw [StrategyChoice.call, erase, if_neg notRoot, NameTable.getElem?_erase]
      by_cases here : name = under
      · simp [Call.Changes, here, here ▸ root]
      · simp [Call.Changes, here]

/-- The table lists just what was chosen. -/
theorem getElem?_afterCalls (history : List Call) :
    ((⟨∅⟩ : StrategyChoice).afterCalls history).table[under]? = some strategy ↔
      Chosen history under strategy := by
  induction history using List.reverseRecOn generalizing under strategy with
  | nil =>
    refine iff_of_false (by simp [afterCalls]) ?_
    rintro ⟨earlier, text, later, split, _⟩
    simp at split
  | append_singleton history last ih =>
    rw [afterCalls, List.foldl_append, List.foldl_cons, List.foldl_nil, getElem?_call, chosen_concat]
    exact or_congr_right (and_congr_right fun _ => ih)

theorem insertSetting_eq_ok (inserted : choice.insertSetting setting = .ok next) :
    ∃ call, Call.ofSetting? setting = some call ∧ choice.call call = next := by
  unfold insertSetting at inserted
  cases parsed : Name.ofUri setting.under with
  | error error =>
    rw [parsed] at inserted
    cases inserted
  | ok name =>
    rw [parsed] at inserted
    exact ⟨.insert name setting.strategy, by rw [Call.ofSetting?, parsed]; rfl, call_of_insert inserted⟩

/-- The settings are a sequence of calls. -/
theorem afterCalls_of_foldlM (folded : choices.foldlM insertSetting choice = .ok next) :
    choice.afterCalls (choices.filterMap Call.ofSetting?) = next := by
  induction choices generalizing choice with
  | nil =>
    cases folded
    rfl
  | cons setting rest ih =>
    rw [List.foldlM_cons] at folded
    obtain ⟨between, inserted, folded⟩ := bind_eq_ok.mp folded
    obtain ⟨call, stands, rfl⟩ := insertSetting_eq_ok inserted
    rw [List.filterMap_cons, stands]
    exact ih folded

theorem getElem?_history (made : ofSettings choices = .ok start) (calls : List Call) :
    (start.afterCalls calls).table[under]? = some strategy ↔
      Chosen (history choices calls) under strategy := by
  have first : (⟨∅⟩ : StrategyChoice).call (.insert .root "multicast") = standard := rfl
  rw [← getElem?_afterCalls, history, afterCalls, afterCalls, List.foldl_append, List.foldl_cons, first]
  rw [← afterCalls_of_foldlM made, afterCalls]

theorem check_of_insertSetting (inserted : choice.insertSetting setting = .ok next) :
    setting.check = .ok () := by
  unfold insertSetting at inserted
  rw [StrategySetting.check_eq_ok_iff]
  split at inserted
  · rename_i name parsed
    refine ⟨⟨name, parsed⟩, ?_⟩
    cases known : Strategy.isKnown setting.strategy with
    | true => rfl
    | false =>
      rw [insert_of_unknown known] at inserted
      cases inserted
  · cases inserted

/-- Settings make a choice just when each of them passes its check. -/
theorem exists_ofSettings_iff :
    (∃ start, ofSettings choices = .ok start) ↔ ∀ setting ∈ choices, setting.check = .ok () := by
  constructor
  · rintro ⟨start, made⟩
    rw [ofSettings] at made
    generalize standard = choice at made
    induction choices generalizing choice with
    | nil => exact nofun
    | cons setting rest ih =>
      rw [List.foldlM_cons] at made
      obtain ⟨between, inserted, made⟩ := bind_eq_ok.mp made
      exact List.forall_mem_cons.mpr ⟨check_of_insertSetting inserted, ih between made⟩
  · exact exists_ofSettings

theorem root_call (some : choice.table[Name.root]?.isSome = true) (call : Call) :
    (choice.call call).table[Name.root]?.isSome = true := by
  obtain ⟨strategy, atRoot⟩ := Option.isSome_iff_exists.mp some
  rw [Option.isSome_iff_exists]
  by_cases changed : call.Changes Name.root
  · cases call with
    | erase name => exact absurd changed.1 changed.2
    | insert name text =>
      obtain ⟨rfl, known⟩ := changed
      obtain ⟨made, isMade⟩ := Strategy.exists_ofText_iff.mpr known
      exact ⟨made, (getElem?_call choice _).mpr (Or.inl ⟨text, rfl, isMade⟩)⟩
  · exact ⟨strategy, (getElem?_call choice _).mpr (Or.inr ⟨changed, atRoot⟩)⟩

/-- The root has a strategy at first, and no call takes it away. -/
theorem root_afterCalls (calls : List Call) (some : choice.table[Name.root]?.isSome = true) :
    (choice.afterCalls calls).table[Name.root]?.isSome = true := by
  induction calls generalizing choice with
  | nil => exact some
  | cons first rest ih => exact ih (root_call some first)

theorem effective_eq (found : choice.table.longestPrefix? name = some (under, strategy)) :
    choice.effective name = strategy := by
  rw [effective, found]

/-- Where the root has a strategy, a name is served by the one of its longest prefix that has. -/
theorem effective_of_root (atRoot : choice.table[Name.root]?.isSome = true) (name : Name) :
    ∃ under, name.Longest (fun under => choice.table[under]?.isSome = true) under ∧
      choice.table[under]? = some (choice.effective name) := by
  cases found : choice.table.longestPrefix? name with
  | none =>
    have nowhere := NameTable.longestPrefix?_eq_none_iff.mp found Name.root rfl
    rw [nowhere] at atRoot
    cases atRoot
  | some row =>
    rw [effective_eq found]
    exact ⟨row.1, NameTable.longestPrefix?_eq_some_iff.mp found⟩

theorem canErase_iff : choice.canErase under = true ↔
    under ≠ Name.root ∧ ∃ strategy, choice.table[under]? = some strategy := by
  rw [canErase, Bool.and_eq_true_iff, Std.ExtTreeMap.contains_iff_mem,
    ← Std.ExtTreeMap.isSome_getElem?_iff_mem, Option.isSome_iff_exists, Bool.not_eq_true',
    ← Bool.not_eq_true, isRoot_iff]

/-- What cannot be erased leaves every prefix with what it had. -/
theorem getElem?_erase_of_not (kept : choice.canErase under = false) (other : Name) :
    (choice.erase under).table[other]? = choice.table[other]? := by
  have idle : ¬ (under ≠ Name.root ∧ ∃ strategy, choice.table[under]? = some strategy) := by
    rw [← canErase_iff, kept]
    exact Bool.false_ne_true
  by_cases root : under = Name.root
  · rw [erase, if_pos (isRoot_iff.mpr root)]
  · have absent : choice.table[under]? = none :=
      Option.eq_none_iff_forall_ne_some.mpr fun strategy found => idle ⟨root, strategy, found⟩
    rw [erase, if_neg fun isRoot => root (isRoot_iff.mp isRoot), NameTable.getElem?_erase]
    split
    · rename_i here
      rw [← here, absent]
    · rfl

theorem effective_congr {other : StrategyChoice}
    (same : ∀ under : Name, other.table[under]? = choice.table[under]?) (name : Name) :
    other.effective name = choice.effective name := by
  have search : other.table.longestPrefix? name = choice.table.longestPrefix? name := by
    rw [NameTable.longestPrefix?, NameTable.longestPrefix?]
    exact congrArg name.prefixes.findSome? (funext fun under => by rw [same])
  rw [effective, effective, search]

/-- Settings make a choice of strategies just when they pass their check. From then on a name
is served by what was last chosen, and not erased, for its longest prefix, the root always has
a strategy, and what is refused changes nothing. -/
theorem strategy_choice_is_a_prefix_map (choices : List StrategySetting) :
    ((∃ start, ofSettings choices = .ok start) ↔ ∀ setting ∈ choices,
      (∃ name, Name.ofUri setting.under = .ok name) ∧ Strategy.isKnown setting.strategy = true) ∧
    (∀ settings : Settings, settings.strategies = choices → (settings.check = .ok () ↔
      settings.defaultInterestLifetime ≠ 0 ∧ settings.deadNonceLifetime ≠ 0 ∧
        settings.deadNonceCapacity ≠ 0 ∧ ∃ start, ofSettings choices = .ok start)) ∧
    ∀ start, ofSettings choices = .ok start → ∀ calls : List Call,
      (∃ strategy, Chosen (history choices calls) Name.root strategy) ∧
      (∀ name, ∃ under,
        name.Longest (fun under => ∃ strategy, Chosen (history choices calls) under strategy) under ∧
          Chosen (history choices calls) under ((start.afterCalls calls).effective name)) ∧
      (∀ under text, Strategy.isKnown text = false →
        (start.afterCalls calls).insert under text = .error (.unknown text) ∧
          ∀ name, ((start.afterCalls calls).call (.insert under text)).effective name =
            (start.afterCalls calls).effective name) ∧
      ∀ under, ((start.afterCalls calls).canErase under = true ↔ under ≠ Name.root ∧
          ∃ strategy, Chosen (history choices calls) under strategy) ∧
        ((start.afterCalls calls).canErase under = false →
          ∀ name, ((start.afterCalls calls).call (.erase under)).effective name =
            (start.afterCalls calls).effective name) := by
  have listed : (∃ start, ofSettings choices = .ok start) ↔ ∀ setting ∈ choices,
      (∃ name, Name.ofUri setting.under = .ok name) ∧ Strategy.isKnown setting.strategy = true := by
    rw [exists_ofSettings_iff]
    exact forall₂_congr fun setting _ => StrategySetting.check_eq_ok_iff
  refine ⟨listed, ?_, fun start made calls => ?_⟩
  · rintro settings rfl
    rw [exists_ofSettings_iff]
    exact Settings.check_eq_ok_iff
  · have atRoot : (start.afterCalls calls).table[Name.root]?.isSome = true := by
      refine root_afterCalls calls ?_
      rw [← afterCalls_of_foldlM made]
      exact root_afterCalls _ (by simp [standard])
    have tracked (under : Name) (strategy : Strategy) :
        (start.afterCalls calls).table[under]? = some strategy ↔
          Chosen (history choices calls) under strategy := getElem?_history made calls
    have has : (fun under => ∃ strategy, Chosen (history choices calls) under strategy) =
        fun under => (start.afterCalls calls).table[under]?.isSome = true := by
      funext under
      simp only [Option.isSome_iff_exists, tracked]
    generalize start.afterCalls calls = choice at atRoot tracked has ⊢
    refine ⟨?_, fun name => ?_, fun under text unknown => ?_, fun under => ⟨?_, fun kept name => ?_⟩⟩
    · simpa only [Option.isSome_iff_exists, tracked] using atRoot
    · rw [has]
      obtain ⟨under, longest, here⟩ := effective_of_root atRoot name
      exact ⟨under, longest, (tracked under _).mp here⟩
    · refine ⟨insert_of_unknown unknown, fun name => ?_⟩
      rw [call, insert_of_unknown unknown]
      rfl
    · simp only [canErase_iff, tracked]
    · exact effective_congr (getElem?_erase_of_not kept) name

/-- Best-route for everything but one part of the namespace. -/
def liveIsMulticast : List StrategySetting := [⟨"/", "best-route"⟩, ⟨"/live", "multicast"⟩]

theorem strategy_choice_is_a_prefix_map_for_two :
    ∃ start, ofSettings liveIsMulticast = .ok start ∧
      (start.afterCalls [.erase .root]).canErase Name.root = false ∧
      (∀ name, ((start.afterCalls [.erase .root]).call (.erase .root)).effective name =
        (start.afterCalls [.erase .root]).effective name) ∧
      ∀ name, ((start.afterCalls [.erase .root]).call (.insert .root "flood")).effective name =
        (start.afterCalls [.erase .root]).effective name := by
  obtain ⟨listed, checked, later⟩ := strategy_choice_is_a_prefix_map liveIsMulticast
  have passed : ({ strategies := liveIsMulticast } : Settings).check = .ok () := by decide +kernel
  obtain ⟨_, _, _, start, made⟩ := (checked { strategies := liveIsMulticast } rfl).mp passed
  obtain ⟨_, _, refused, erased⟩ := later start made [.erase .root]
  obtain ⟨mayErase, kept⟩ := erased .root
  have stays : (start.afterCalls [.erase .root]).canErase Name.root = false := by
    rw [Bool.eq_false_iff, Ne, mayErase]
    exact fun ⟨notRoot, _⟩ => notRoot rfl
  exact ⟨start, made, stays, kept stays, (refused .root "flood" (by decide)).2⟩

end StrategyChoice

end NamedData
