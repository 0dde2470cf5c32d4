import NamedData.Simulation.Setup

namespace NamedData

theorem bind_eq_ok {ε α β : Type} {first : Except ε α} {next : α → Except ε β} {result : β} :
    (first >>= next) = .ok result ↔ ∃ value, first = .ok value ∧ next value = .ok result := by
  cases first with
  | error error => exact ⟨nofun, nofun⟩
  | ok value => exact ⟨fun same => ⟨value, rfl, same⟩, fun ⟨_, same, later⟩ => by cases same; exact later⟩

/-- A check that goes on only where a condition holds. -/
theorem ite_error_eq_ok {ε α : Type} {allowed : Prop} [Decidable allowed] {error : ε}
    {rest : Except ε α} {result : α} :
    (if allowed then rest else .error error) = .ok result ↔ allowed ∧ rest = .ok result := by
  split
  · exact (and_iff_right ‹_›).symm
  · exact iff_of_false nofun fun passed => absurd passed.1 ‹_›

/-- A check that refuses at once where a condition holds. -/
theorem error_ite_eq_ok {ε α : Type} {refused : Prop} [Decidable refused] {error : ε}
    {rest : Except ε α} {result : α} :
    (if refused then .error error else rest) = .ok result ↔ ¬ refused ∧ rest = .ok result := by
  rw [← ite_not, ite_error_eq_ok]

theorem forM_eq_ok {ε α : Type} {check : α → Except ε Unit} {items : List α} {done : Unit} :
    items.forM check = .ok done ↔ ∀ item ∈ items, check item = .ok () := by
  induction items with
  | nil => exact ⟨fun _ => nofun, fun _ => rfl⟩
  | cons first rest ih =>
    rw [List.forall_mem_cons, ← ih]
    show (check first >>= fun _ => rest.forM check) = .ok done ↔ _
    rw [bind_eq_ok]
    exact ⟨fun ⟨_, passed, later⟩ => ⟨passed, later⟩, fun ⟨passed, later⟩ => ⟨(), passed, later⟩⟩

/-- A fold goes through when each step does, and what each step keeps up holds at its end. -/
theorem foldlM_keeps {α σ ε : Type} {step : σ → α → Except ε σ} (Holds : List α → σ → Prop)
    {items : List α} (steps : ∀ done item state, item ∈ items → Holds done state →
      ∃ next, step state item = .ok next ∧ Holds (done ++ [item]) next)
    {state : σ} (start : Holds [] state) :
    ∃ last, items.foldlM step state = .ok last ∧ Holds items last := by
  suffices ∀ done, Holds done state →
      ∃ last, items.foldlM step state = .ok last ∧ Holds (done ++ items) last from this [] start
  clear start
  intro done holds
  induction items generalizing done state with
  | nil => exact ⟨state, rfl, by rw [List.append_nil]; exact holds⟩
  | cons first rest ih =>
    obtain ⟨next, stepped, holds⟩ := steps done first state List.mem_cons_self holds
    obtain ⟨last, folded, holds'⟩ := ih
      (fun done item state member => steps done item state (List.mem_cons_of_mem _ member)) _ holds
    refine ⟨last, ?_, by rw [List.append_cons]; exact holds'⟩
    rw [List.foldlM_cons, stepped]
    exact folded

theorem findPrefix_of_ok {under : String} {name : Name}
    (parsed : parsePrefix under = .ok name) : findPrefix under = .ok name := by
  rw [findPrefix, parsed]

namespace Scenario

variable {scenario : Scenario}

/-- What the parts of a scenario that passes its check have passed. -/
structure Valid (scenario : Scenario) : Prop where
  settings : scenario.forwarder.check = .ok ()
  links : ∀ link ∈ scenario.links, scenario.checkLink link = .ok ()
  routes : ∀ route ∈ scenario.routes, scenario.checkRoute route = .ok ()
  consumers : ∀ consumer ∈ scenario.consumers, scenario.checkConsumer consumer = .ok ()
  producers : ∀ producer ∈ scenario.producers, scenario.checkProducer producer = .ok ()

theorem valid_of_check (passed : scenario.check = .ok ()) : scenario.Valid := by
  unfold check at passed
  cases settings : scenario.forwarder.check with
  | error error =>
    rw [settings] at passed
    cases passed
  | ok _ =>
    cases names : firstDuplicate? [] (scenario.nodes.map (·.name)) with
    | some node =>
      rw [settings, names] at passed
      cases passed
    | none =>
      rw [settings, names] at passed
      simp only [bind_eq_ok, forM_eq_ok] at passed
      obtain ⟨_, _, _, _, _, links, _, routes, _, consumers, producers⟩ := passed
      exact ⟨settings, links, routes, consumers, producers⟩

theorem place?_isSome {node : String} (known : scenario.checkNode node = .ok ()) :
    ∃ place, scenario.place? node = some place ∧ place < scenario.nodes.length := by
  rw [checkNode, ite_error_eq_ok] at known
  obtain ⟨setting, member, same⟩ := List.any_eq_true.mp known.1
  obtain ⟨place, found⟩ := List.mem_iff_getElem?.mp member
  have within := (List.getElem?_eq_some_iff.mp found).1
  have some : (scenario.place? node).isSome := by
    rw [place?, List.find?_isSome]
    exact ⟨place, List.mem_reverse.mpr (List.mem_range.mpr within), by rw [found]; exact same⟩
  obtain ⟨last, isLast⟩ := Option.isSome_iff_exists.mp some
  exact ⟨last, isLast, List.mem_range.mp (List.mem_reverse.mp (List.mem_of_find?_eq_some isLast))⟩

theorem findNode_of_place? {node : String} {place : Nat} (found : scenario.place? node = some place) :
    scenario.findNode node = .ok place := by
  rw [findNode, found]

theorem Valid.link (valid : scenario.Valid) {link : LinkSetting} (member : link ∈ scenario.links) :
    ∃ a b, scenario.place? link.a = some a ∧ scenario.place? link.b = some b ∧
      a < scenario.nodes.length ∧ b < scenario.nodes.length := by
  have passed := valid.links link member
  simp only [checkLink, bind_eq_ok] at passed
  obtain ⟨_, knowsA, _, knowsB, _⟩ := passed
  obtain ⟨a, foundA, withinA⟩ := place?_isSome knowsA
  obtain ⟨b, foundB, withinB⟩ := place?_isSome knowsB
  exact ⟨a, b, foundA, foundB, withinA, withinB⟩

/-- A route of a valid scenario leads along a link. -/
theorem Valid.route (valid : scenario.Valid) {route : RouteSetting}
    (member : route ∈ scenario.routes) :
    ∃ name, parsePrefix route.under = .ok name ∧ ∃ link ∈ scenario.links,
      link.a = route.node ∧ link.b = route.nextHop ∨
        link.a = route.nextHop ∧ link.b = route.node := by
  have passed := valid.routes route member
  simp only [checkRoute, bind_eq_ok, ite_error_eq_ok] at passed
  obtain ⟨_, _, name, parsed, neighbours, _⟩ := passed
  obtain ⟨link, listed, joins⟩ := List.any_eq_true.mp neighbours
  refine ⟨name, parsed, link, listed, ?_⟩
  simpa using joins

theorem Valid.consumer (valid : scenario.Valid) {consumer : ConsumerSetting}
    (member : consumer ∈ scenario.consumers) :
    ∃ place name, scenario.place? consumer.node = some place ∧ place < scenario.nodes.length ∧
      parsePrefix consumer.under = .ok name := by
  have passed := valid.consumers consumer member
  simp only [checkConsumer, bind_eq_ok] at passed
  obtain ⟨_, knows, name, parsed, _⟩ := passed
  obtain ⟨place, found, within⟩ := place?_isSome knows
  exact ⟨place, name, found, within, parsed⟩

theorem Valid.frequency (valid : scenario.Valid) {consumer : ConsumerSetting}
    (member : consumer ∈ scenario.consumers) :
    consumer.frequency.isPositiveUpTo 1000000 = true := by
  have passed := valid.consumers consumer member
  simp only [checkConsumer, bind_eq_ok, ite_error_eq_ok] at passed
  obtain ⟨_, _, _, _, inRange, _⟩ := passed
  exact inRange

theorem Valid.producer (valid : scenario.Valid) {producer : ProducerSetting}
    (member : producer ∈ scenario.producers) :
    ∃ place name, scenario.place? producer.node = some place ∧ place < scenario.nodes.length ∧
      parsePrefix producer.under = .ok name := by
  have passed := valid.producers producer member
  simp only [checkProducer, bind_eq_ok] at passed
  obtain ⟨_, knows, name, parsed, _⟩ := passed
  obtain ⟨place, found, within⟩ := place?_isSome knows
  exact ⟨place, name, found, within, parsed⟩

end Scenario

/-- A strategy that passes its check can be chosen. -/
theorem StrategyChoice.insertSetting_of_check {setting : StrategySetting}
    (passed : setting.check = .ok ()) (choice : StrategyChoice) :
    ∃ next, choice.insertSetting setting = .ok next := by
  unfold StrategySetting.check at passed
  split at passed
  · cases passed
  · rename_i name parsed
    rw [insertSetting, parsed]
    split at passed
    · rename_i known
      simp only [strategyNames, List.contains_iff_mem, List.mem_cons, List.not_mem_nil,
        or_false] at known
      rcases known with multicast | bestRoute
      · exact ⟨_, by simp only [insert, Strategy.ofText, multicast]; rfl⟩
      · exact ⟨_, by simp only [insert, Strategy.ofText, bestRoute]; rfl⟩
    · cases passed

theorem StrategyChoice.exists_ofSettings {choices : List StrategySetting}
    (passed : ∀ setting ∈ choices, setting.check = .ok ()) :
    ∃ strategies, ofSettings choices = .ok strategies := by
  obtain ⟨strategies, chosen, _⟩ := foldlM_keeps (fun _ _ => True)
    (fun _ setting choice member _ =>
      (insertSetting_of_check (passed setting member) choice).imp
        fun _ inserted => ⟨inserted, trivial⟩) trivial
  exact ⟨strategies, chosen⟩

theorem Settings.check_eq_ok_iff {settings : Settings} :
    settings.check = .ok () ↔ settings.defaultInterestLifetime ≠ 0 ∧
      settings.deadNonceLifetime ≠ 0 ∧ settings.deadNonceCapacity ≠ 0 ∧
        ∀ setting ∈ settings.strategies, setting.check = .ok () := by
  rw [check, error_ite_eq_ok, error_ite_eq_ok, error_ite_eq_ok, forM_eq_ok]

/-- Settings that pass their check make a forwarder. -/
theorem Forwarder.exists_ofSettings {settings : Settings} (passed : settings.check = .ok ())
    (nonces : NonceSource) : ∃ forwarder, ofSettings settings nonces = .ok forwarder := by
  obtain ⟨_, _, _, known⟩ := Settings.check_eq_ok_iff.mp passed
  obtain ⟨strategies, chosen⟩ := StrategyChoice.exists_ofSettings known
  rw [ofSettings, withParts, chosen]
  exact ⟨_, rfl⟩

end NamedData
