import NamedData.Proofs.Faults
import NamedData.Proofs.SetupParts

namespace NamedData

open Simulation (Driven)

theorem Name.isPrefixOf_trans {shorter middle longer : Name}
    (first : shorter.isPrefixOf middle = true) (second : middle.isPrefixOf longer = true) :
    shorter.isPrefixOf longer = true := by
  have first := List.isPrefixOf_iff_prefix.mp first
  have second := List.isPrefixOf_iff_prefix.mp second
  exact List.isPrefixOf_iff_prefix.mpr (first.trans second)

namespace Forwarder

variable {forwarder : Forwarder} {face : FaceId} {under : Name} {action : Action}

/-- A face is for the names under a prefix: no other way leads there, and no other Interest
waits there. -/
structure Reserves (forwarder : Forwarder) (face : FaceId) (under : Name) : Prop where
  routes : forwarder.fib.Every fun name other => other = face → under.isPrefixOf name = true
  waits : ∀ {interest : Interest}, (face, .interest interest) ∈ forwarder.outbox.sent →
    under.isPrefixOf interest.name = true

/-- What goes out of the face is new only if an Interest comes in, and then its name is one
that a way to the face is for. -/
theorem Reserves.act (reserves : forwarder.Reserves face under) (sound : forwarder.Sound)
    (driven : Driven action) : (forwarder.act action).Reserves face under := by
  have filed := sound.matched.filed
  refine ⟨driven.every filed reserves.routes, fun {interest} waits => ?_⟩
  by_cases collects : ∃ other wanted, action = .collect other wanted
  · obtain ⟨other, wanted, rfl⟩ := collects
    exact reserves.waits (List.mem_filter.mp waits).1
  · rw [sent_act filed fun other wanted same => collects ⟨other, wanted, same⟩] at waits
    rcases List.mem_append.mp waits with old | new
    · exact reserves.waits old
    · cases Sender.of_sent new with
      | receives source arrived =>
        obtain ⟨named, hop, listed, here⟩ := sound.hop_of_sends new
        obtain ⟨name, shorter, fine⟩ := reserves.routes.longestPrefixMatch listed
        rw [named]
        exact Name.isPrefixOf_trans (fine here) shorter
      | sends => cases driven with | on on => cases on

theorem Reserves.run (reserves : forwarder.Reserves face under) (sound : forwarder.Sound)
    {actions : List Action} (driven : ∀ action ∈ actions, Driven action) :
    (forwarder.run actions).Reserves face under := by
  induction actions generalizing forwarder with
  | nil => exact reserves
  | cons action rest ih =>
    have next := reserves.act sound (driven action List.mem_cons_self)
    exact ih next (sound.act action) fun later member => driven later (List.mem_cons_of_mem _ member)

end Forwarder

namespace Simulation

variable {simulation next : Simulation} {place : Nat} {face : FaceId} {name : Name}

/-- Every producer has a face that is for the names under its prefix. -/
structure Reserved (simulation : Simulation) : Prop where
  sound : ∀ {place : Nat} {node : Node}, simulation.nodes[place]? = some node →
    node.forwarder.Sound
  faces : ∀ {answerer : Nat} {producer : Producer} {node : Node},
    simulation.producers[answerer]? = some producer → simulation.nodes[producer.node]? = some node →
      node.forwarder.Reserves producer.face producer.under

theorem Reserved.perform (reserved : simulation.Reserved) (move : Move) :
    (simulation.perform move).Reserved := by
  refine ⟨fun {place node} found => ?_, fun {answerer producer node} listed found => ?_⟩
  · rw [nodes_perform] at found
    obtain ⟨old, was, rfl⟩ := Option.map_eq_some_iff.mp found
    exact (reserved.sound was).run _
  · rw [producers_perform] at listed
    obtain ⟨before, here, rfl⟩ := Option.map_eq_some_iff.mp listed
    rw [nodes_perform] at found
    obtain ⟨old, was, rfl⟩ := Option.map_eq_some_iff.mp found
    exact (reserved.faces here was).run (reserved.sound was) fun _ => driven_of_calls

theorem Reserved.follow (reserved : simulation.Reserved) (moves : List Move) :
    (simulation.follow moves).Reserved := by
  induction moves generalizing simulation with
  | nil => exact reserved
  | cons move rest ih => exact ih (reserved.perform move)

/-- What a way for a prefix leads to: the end of a link, or a producer of just that prefix. -/
def LeadsTo (simulation : Simulation) (place : Nat) (node : Node) (name : Name) (face : FaceId) :
    Prop :=
  (∃ linkEnd ∈ node.linkEnds, linkEnd.face = face) ∨
    ∃ producer ∈ simulation.producers, producer.node = place ∧ producer.face = face ∧
      producer.under = name

/-- Every way of every node is known to lead somewhere. -/
def Explained (simulation : Simulation) : Prop :=
  ∀ (place : Nat) (node : Node), simulation.nodes[place]? = some node →
    node.forwarder.fib.Every (simulation.LeadsTo place node)

/-- The ways stay as they were, and so does all that they may lead to. -/
structure SameWays (before after : Simulation) : Prop where
  nodes : ∀ {place : Nat} {node : Node}, after.nodes[place]? = some node →
    ∃ old, before.nodes[place]? = some old ∧ node.forwarder.fib = old.forwarder.fib ∧
      old.linkEnds ⊆ node.linkEnds
  producers : before.producers ⊆ after.producers

theorem SameWays.trans {middle : Simulation} (first : SameWays simulation middle)
    (second : SameWays middle next) : SameWays simulation next := by
  refine ⟨fun found => ?_, List.Subset.trans first.producers second.producers⟩
  obtain ⟨between, found, fib, ends⟩ := second.nodes found
  obtain ⟨old, found, fib', ends'⟩ := first.nodes found
  exact ⟨old, found, fib.trans fib', List.Subset.trans ends' ends⟩

theorem SameWays.explained (same : SameWays simulation next) (explained : simulation.Explained) :
    next.Explained := by
  intro place node found
  obtain ⟨old, was, fib, ends⟩ := same.nodes found
  rw [fib]
  refine (explained place old was).imp fun name face leads => ?_
  rcases leads with ⟨linkEnd, member, here⟩ | ⟨producer, member, here⟩
  · exact Or.inl ⟨linkEnd, ends member, here⟩
  · exact Or.inr ⟨producer, same.producers member, here⟩

theorem sameWays_addFace {added : Face} : SameWays simulation (simulation.addFace place added).2 := by
  refine ⟨fun {other node} found => ?_, ?_⟩
  · unfold addFace at found
    split at found
    · exact ⟨node, found, rfl, List.Subset.refl _⟩
    · rename_i old was
      rw [List.getElem?_set] at found
      split at found
      · rename_i same
        split at found
        · cases found
          exact ⟨old, same ▸ was, rfl, List.Subset.refl _⟩
        · cases found
      · exact ⟨node, found, rfl, List.Subset.refl _⟩
  · rw [sameApps_addFace.producers]
    exact List.Subset.refl _

theorem sameWays_addLinkEnd {linkEnd : LinkEnd} :
    SameWays simulation (simulation.addLinkEnd place linkEnd) := by
  refine ⟨fun {other node} found => ?_, List.Subset.refl _⟩
  rw [addLinkEnd, List.getElem?_modify] at found
  obtain ⟨old, was, rfl⟩ := Option.map_eq_some_iff.mp found
  refine ⟨old, was, ?_⟩
  split
  · exact ⟨rfl, List.subset_append_left _ _⟩
  · exact ⟨rfl, List.Subset.refl _⟩

variable {scenario : Scenario}

theorem sameWays_addLink {link : LinkSetting} (added : addLink scenario simulation link = .ok next) :
    SameWays simulation next := by
  unfold addLink at added
  obtain ⟨a, _, added⟩ := bind_eq_ok.mp added
  obtain ⟨b, _, added⟩ := bind_eq_ok.mp added
  cases added
  exact sameWays_addFace.trans
    (sameWays_addFace.trans (sameWays_addLinkEnd.trans sameWays_addLinkEnd))

/-- A new way may lead wherever a way may lead to. -/
theorem Explained.addRoute (explained : simulation.Explained) {hop : NextHop}
    (leads : ∀ {node : Node}, simulation.nodes[place]? = some node →
      simulation.LeadsTo place node name hop.face) :
    (simulation.updateNode place (·.addRoute name hop)).Explained := by
  intro other node found
  rw [updateNode, List.getElem?_modify] at found
  obtain ⟨old, was, rfl⟩ := Option.map_eq_some_iff.mp found
  have every := explained other old was
  split
  · rename_i same
    subst same
    exact every.addNextHop (leads was)
  · exact every

theorem mem_linkEnds_of_faceTowards? {node : Node} {neighbour : Nat}
    (towards : node.faceTowards? neighbour = some face) :
    ∃ linkEnd ∈ node.linkEnds, linkEnd.face = face := by
  obtain ⟨linkEnd, first, same⟩ := Option.map_eq_some_iff.mp towards
  exact ⟨linkEnd, List.mem_of_find?_eq_some first, same⟩

theorem Explained.addRouteSetting (explained : simulation.Explained) {route : RouteSetting}
    (added : Simulation.addRoute scenario simulation route = .ok next) : next.Explained := by
  unfold Simulation.addRoute at added
  obtain ⟨place, _, added⟩ := bind_eq_ok.mp added
  obtain ⟨neighbour, _, added⟩ := bind_eq_ok.mp added
  split at added
  · cases added
  · rename_i face towards
    obtain ⟨under, _, added⟩ := bind_eq_ok.mp added
    cases added
    refine explained.addRoute fun {node} found => ?_
    rw [found] at towards
    exact Or.inl (mem_linkEnds_of_faceTowards? towards)

theorem Explained.addProducer (explained : simulation.Explained) {setting : ProducerSetting}
    (added : Simulation.addProducer scenario simulation setting = .ok next) : next.Explained := by
  obtain ⟨place, added', under, settled, id, _, isSettled, rfl⟩ := addProducer_eq_ok added
  obtain ⟨producer, isProducer⟩ : ∃ producer, producer = Producer.start place id under
    setting.payloadSize (setting.freshness.map Duration.ofMillis) := ⟨_, rfl⟩
  have faced := @sameWays_addFace simulation place added'
  rw [isSettled] at faced
  have joined : SameWays settled { settled with producers := settled.producers ++ [producer] } :=
    ⟨fun {_ node} found => ⟨node, found, rfl, List.Subset.refl _⟩, List.subset_append_left _ _⟩
  have ways := (faced.trans joined).explained explained
  rw [← isProducer]
  refine ways.addRoute fun {node} _ => Or.inr ⟨producer, ?_, ?_⟩
  · exact List.mem_append_right _ (List.mem_singleton_self _)
  · rw [isProducer]
    exact ⟨rfl, rfl, rfl⟩

theorem Explained.addConsumer (explained : simulation.Explained) {setting : ConsumerSetting}
    (added : Simulation.addConsumer scenario simulation setting = .ok next) : next.Explained := by
  obtain ⟨place, added', settled, id, start, consumer, isSettled, _, rfl⟩ := addConsumer_eq_ok added
  have faced := @sameWays_addFace simulation place added'
  rw [isSettled] at faced
  exact faced.explained explained

theorem explained_bare {nodes : List Node} {nonces : NonceSource} {stop : Instant}
    (fresh : ∀ node ∈ nodes, Forwarder.ofSettings scenario.forwarder nonces = .ok node.forwarder ∧
      node.linkEnds = []) : Explained { stop, nodes, nonces } := by
  intro place node found
  rw [Forwarder.fib_start (fresh node (List.mem_of_getElem? found)).1]
  exact Fib.every_empty

theorem keptUp_explained : KeptUp scenario fun _ simulation => simulation.Explained where
  link _ added explained := (sameWays_addLink added).explained explained
  route added explained := explained.addRouteSetting added
  producer _ added explained := explained.addProducer added
  consumer _ added explained := explained.addConsumer added

variable {links : List LinkSetting} {asking : List ConsumerSetting}

/-- Once all is set up, only ways for its prefix lead to a producer, since no other application
and no link has its face. -/
theorem SetUp.reserved (setUp : SetUp scenario links asking simulation)
    (explained : simulation.Explained) : simulation.Reserved := by
  have untouched {place : Nat} {node : Node} (found : simulation.nodes[place]? = some node) :
      node.forwarder.Untouched :=
    setUp.untouched (by rw [Simulation.forwarderAt?, found]; rfl)
  refine ⟨fun found => (untouched found).sound, fun {answerer producer node} listed found =>
    ⟨(explained _ node found).imp fun name face leads here => ?_, fun {interest} waits => ?_⟩⟩
  · subst here
    have answers : (producer.node, producer.face) ∈ simulation.layout.answerers :=
      List.mem_map.mpr ⟨producer, List.mem_of_getElem? listed, rfl⟩
    rcases leads with ⟨linkEnd, member, same⟩ | ⟨other, member, node, face, rfl⟩
    · have app := List.mem_append_right simulation.layout.askers answers
      rw [← same] at app
      exact absurd app (setUp.proper.apart (mem_endsAt.mpr ⟨node, found, member⟩))
    · have once : (simulation.producers.map fun producer => (producer.node, producer.face)).Nodup :=
        (List.nodup_append.mp setUp.proper.apps).2.1
      have same : other = producer :=
        List.inj_on_of_nodup_map once member (List.mem_of_getElem? listed) (Prod.ext node face)
      rw [same]
      exact List.isPrefixOf_iff_prefix.mpr (List.prefix_refl _)
  · rw [(untouched found).outbox] at waits
    cases waits

end Simulation

end NamedData
