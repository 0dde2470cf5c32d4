import NamedData.Proofs.RouteFaces
import NamedData.Proofs.RunOrder
import NamedData.Proofs.Validity

namespace NamedData

namespace Forwarder

/-- A forwarder that was handed nothing yet, with routes that lead somewhere. -/
structure Untouched (forwarder : Forwarder) : Prop where
  sound : forwarder.Sound
  clock : forwarder.now = Duration.zero
  pit : forwarder.pit = .empty
  cached : forwarder.contentStore.cached = ∅
  outbox : forwarder.outbox = .empty
  counters : forwarder.counters = {}
  bounded : forwarder.faces.Bounded
  routed : forwarder.Routed

variable {forwarder : Forwarder}

theorem untouched_start {settings : Settings} {nonces : NonceSource}
    (made : ofSettings settings nonces = .ok forwarder) : forwarder.Untouched := by
  have sound := sound_start made
  unfold ofSettings withParts at made
  split at made
  · cases made
  · cases made
    exact ⟨sound, rfl, rfl, rfl, rfl, rfl, nofun, Fib.within_empty⟩

theorem fib_start {settings : Settings} {nonces : NonceSource}
    (made : ofSettings settings nonces = .ok forwarder) : forwarder.fib = .empty := by
  unfold ofSettings withParts at made
  split at made
  · cases made
  · cases made
    rfl

theorem Untouched.addFace (untouched : forwarder.Untouched) (face : Face) :
    (forwarder.addFace face).2.Untouched :=
  ⟨untouched.sound.addFace face, untouched.clock, untouched.pit, untouched.cached, untouched.outbox,
    untouched.counters, FaceTable.Bounded.add untouched.bounded face,
    untouched.routed.of_more fun present => FaceTable.contains_add_of_contains present face⟩

theorem Untouched.addRoute (untouched : forwarder.Untouched) (under : Name) {hop : NextHop}
    (present : forwarder.faces.contains hop.face = true) :
    (forwarder.addRoute under hop).Untouched :=
  ⟨untouched.sound.of_same rfl rfl rfl, untouched.clock, untouched.pit, untouched.cached,
    untouched.outbox, untouched.counters, untouched.bounded, untouched.routed.addNextHop under present⟩

end Forwarder

namespace Simulation

namespace Layout

variable {layout : Layout} {place : Nat} {face : FaceId}

/-- A face that something is behind. -/
def Uses (layout : Layout) (place : Nat) (face : FaceId) : Prop :=
  (∃ linkEnd ∈ layout.endsAt place, linkEnd.face = face) ∨ (place, face) ∈ layout.apps

/-- An application gets a face of its own. -/
theorem Proper.settle {joined : Layout} (proper : layout.Proper) (free : ¬ layout.Uses place face)
    (ends : joined.ends = layout.ends) (apps : joined.apps.Perm ((place, face) :: layout.apps)) :
    joined.Proper := by
  have same : joined.endsAt = layout.endsAt := by
    funext place
    rw [endsAt, endsAt, ends]
  refine ⟨fun place => by rw [same]; exact proper.ends place, ?_, ?_, ?_⟩
  · rw [apps.nodup_iff]
    exact List.nodup_cons.mpr ⟨fun taken => free (Or.inr taken), proper.apps⟩
  · intro other linkEnd member taken
    rw [same] at member
    rcases List.mem_cons.mp (apps.mem_iff.mp taken) with new | old
    · cases new
      exact free (Or.inl ⟨linkEnd, member, rfl⟩)
    · exact proper.apart member old
  · rw [same]
    exact proper.mated

/-- A link joins two nodes. -/
def join (layout : Layout) (a b : Nat) (endA endB : LinkEnd) : Layout :=
  { layout with ends := (layout.ends.modify a (· ++ [endA])).modify b (· ++ [endB]) }

theorem endsAt_join {a b : Nat} {endA endB : LinkEnd} (hasA : a < layout.ends.length)
    (hasB : b < layout.ends.length) (place : Nat) :
    (layout.join a b endA endB).endsAt place = layout.endsAt place ++
      ((if a = place then [endA] else []) ++ if b = place then [endB] else []) := by
  rw [endsAt, endsAt, join, List.getElem?_modify, List.getElem?_modify]
  cases found : layout.ends[place]? with
  | none =>
    have past := List.getElem?_eq_none_iff.mp found
    rw [if_neg (by omega), if_neg (by omega)]
    rfl
  | some ends =>
    simp only [Option.map_eq_map, Option.map_some, Option.getD_some]
    split <;> split <;> simp

theorem Proper.join {a b : Nat} {endA : LinkEnd} (proper : layout.Proper)
    (hasA : a < layout.ends.length) (hasB : b < layout.ends.length) (peer : endA.peerNode = b)
    (freeA : ¬ layout.Uses a endA.face) (freeB : ¬ layout.Uses b endA.peerFace)
    (distinct : a = b → endA.face ≠ endA.peerFace) :
    (layout.join a b endA (endA.back a)).Proper := by
  have ends := @endsAt_join layout a b endA (endA.back a) hasA hasB
  have member {place : Nat} {linkEnd : LinkEnd} :
      linkEnd ∈ (layout.join a b endA (endA.back a)).endsAt place ↔
        linkEnd ∈ layout.endsAt place ∨ a = place ∧ linkEnd = endA ∨
          b = place ∧ linkEnd = endA.back a := by
    rw [ends, List.mem_append, List.mem_append]
    refine or_congr Iff.rfl (or_congr ?_ ?_) <;> split <;> simp_all
  refine ⟨fun place => ?_, proper.apps, ?_, ?_⟩
  · have faceA : endA.face ∉ (layout.endsAt a).map (·.face) := fun taken => by
      obtain ⟨linkEnd, old, same⟩ := List.mem_map.mp taken
      exact freeA (Or.inl ⟨linkEnd, old, same⟩)
    have faceB : endA.peerFace ∉ (layout.endsAt b).map (·.face) := fun taken => by
      obtain ⟨linkEnd, old, same⟩ := List.mem_map.mp taken
      exact freeB (Or.inl ⟨linkEnd, old, same⟩)
    rw [ends, List.map_append]
    refine List.nodup_append.mpr ⟨proper.ends place, ?_, ?_⟩
    · by_cases isA : a = place <;> by_cases isB : b = place <;> simp [isA, isB]
      exact distinct (isA.trans isB.symm)
    · rintro face old other new rfl
      by_cases isA : a = place <;> by_cases isB : b = place <;> simp [isA, isB] at new
      · subst isA
        subst isB
        rcases new with rfl | rfl
        · exact faceA old
        · exact faceB old
      · subst isA
        rw [new] at old
        exact faceA old
      · subst isB
        rw [new] at old
        exact faceB old
  · intro place linkEnd listed taken
    rcases member.mp listed with old | ⟨rfl, rfl⟩ | ⟨rfl, rfl⟩
    · exact proper.apart old taken
    · exact freeA (Or.inr taken)
    · exact freeB (Or.inr taken)
  · intro place linkEnd listed
    rcases member.mp listed with old | ⟨rfl, rfl⟩ | ⟨rfl, rfl⟩
    · exact member.mpr (Or.inl (proper.mated old))
    · exact member.mpr (Or.inr (Or.inr ⟨peer.symm, rfl⟩))
    · refine member.mpr (Or.inr (Or.inl ⟨rfl, ?_⟩))
      subst peer
      rfl

end Layout

variable {simulation : Simulation} {place : Nat} {face : FaceId}

def forwarderAt? (simulation : Simulation) (place : Nat) : Option Forwarder :=
  simulation.nodes[place]?.map (·.forwarder)

/-- A face that the node at a place has. -/
def Issued (simulation : Simulation) (place : Nat) (face : FaceId) : Prop :=
  ∃ forwarder, simulation.forwarderAt? place = some forwarder ∧
    forwarder.faces.contains face = true

theorem forwarderAt?_updateNode (change : Forwarder → Forwarder) (other : Nat) :
    (simulation.updateNode place change).forwarderAt? other =
      (simulation.forwarderAt? other).map fun forwarder =>
        if place = other then change forwarder else forwarder := by
  rw [forwarderAt?, forwarderAt?, updateNode, List.getElem?_modify]
  cases simulation.nodes[other]? with
  | none => rfl
  | some node =>
    simp only [Option.map_eq_map, Option.map_some]
    split <;> rfl

theorem layout_updateNode (change : Forwarder → Forwarder) :
    (simulation.updateNode place change).layout = simulation.layout := by
  have ends : (simulation.updateNode place change).nodes.map (·.linkEnds) =
      simulation.nodes.map (·.linkEnds) := List.ext_getElem? fun other => by
    rw [updateNode, List.getElem?_map, List.getElem?_map, List.getElem?_modify]
    cases simulation.nodes[other]? with
    | none => rfl
    | some node =>
      simp only [Option.map_eq_map, Option.map_some]
      split <;> rfl
  rw [layout, ends]
  rfl

theorem forwarderAt?_addLinkEnd (linkEnd : LinkEnd) (other : Nat) :
    (simulation.addLinkEnd place linkEnd).forwarderAt? other = simulation.forwarderAt? other := by
  rw [forwarderAt?, forwarderAt?, addLinkEnd, List.getElem?_modify]
  cases simulation.nodes[other]? with
  | none => rfl
  | some node =>
    simp only [Option.map_eq_map, Option.map_some]
    split <;> rfl

theorem layout_addLinkEnd (linkEnd : LinkEnd) :
    (simulation.addLinkEnd place linkEnd).layout =
      { simulation.layout with ends := simulation.layout.ends.modify place (· ++ [linkEnd]) } := by
  have ends : (simulation.addLinkEnd place linkEnd).nodes.map (·.linkEnds) =
      (simulation.nodes.map (·.linkEnds)).modify place (· ++ [linkEnd]) :=
    List.ext_getElem? fun other => by
      rw [addLinkEnd, List.getElem?_map, List.getElem?_modify, List.getElem?_modify,
        List.getElem?_map]
      cases simulation.nodes[other]? with
      | none => rfl
      | some node =>
        simp only [Option.map_eq_map, Option.map_some]
        split <;> rfl
  rw [layout, ends]
  rfl

theorem addFace_eq {forwarder : Forwarder} (found : simulation.forwarderAt? place = some forwarder)
    (face : Face) : simulation.addFace place face =
      (⟨256 + forwarder.faces.added⟩,
        simulation.updateNode place fun forwarder => (forwarder.addFace face).2) := by
  obtain ⟨node, atPlace, rfl⟩ := Option.map_eq_some_iff.mp found
  rw [addFace, atPlace, updateNode]
  have same : simulation.nodes.modify place (fun node =>
      { node with forwarder := (node.forwarder.addFace face).2 }) =
        simulation.nodes.set place { node with forwarder := (node.forwarder.addFace face).2 } :=
    List.ext_getElem? fun other => by
      rw [List.getElem?_modify, List.getElem?_set]
      split
      · rename_i here
        subst here
        rw [atPlace, if_pos (List.getElem?_eq_some_iff.mp atPlace).1]
        rfl
      · exact Option.map_id'
  rw [same]
  rfl

end Simulation

open Simulation

namespace Scenario

/-- A link has an end at either of its nodes, and each leads to the other. -/
def Joins (scenario : Scenario) (layout : Layout) (link : LinkSetting) : Prop :=
  ∃ a b linkEnd, scenario.place? link.a = some a ∧ scenario.place? link.b = some b ∧
    linkEnd ∈ layout.endsAt a ∧ linkEnd.peerNode = b ∧ linkEnd.back a ∈ layout.endsAt b ∧
      linkEnd.delay = Duration.ofMillis link.delay

/-- A consumer is as it was asked for, and has not asked yet. -/
structure Asks (scenario : Scenario) (setting : ConsumerSetting) (consumer : Consumer) : Prop where
  node : scenario.place? setting.node = some consumer.node
  under : parsePrefix setting.under = .ok consumer.under
  lifetime : consumer.lifetime = Duration.ofMillis setting.lifetime
  unasked : consumer.nextNumber = 0 ∧ consumer.sent = 0 ∧ consumer.pending = ∅
  unanswered : consumer.satisfied = 0 ∧ consumer.timedOut = 0 ∧ consumer.waited = 0

end Scenario

namespace Simulation

/-- What holds of a simulation while it is set up, with the links and the consumers
that it has so far. -/
structure SetUp (scenario : Scenario) (links : List LinkSetting) (asking : List ConsumerSetting)
    (simulation : Simulation) : Prop where
  sized : simulation.nodes.length = scenario.nodes.length
  stop : simulation.stop = Duration.ofMillis scenario.duration
  proper : simulation.layout.Proper
  untouched : ∀ {place : Nat} {forwarder : Forwarder},
    simulation.forwarderAt? place = some forwarder → forwarder.Untouched
  issued : ∀ {place : Nat} {face : FaceId}, simulation.layout.Uses place face →
    simulation.Issued place face
  clock : simulation.now = Duration.zero
  numbered : simulation.timers.Numbered
  ticks : ∀ {timer : TimerId} {event : Event}, simulation.timers.running[timer]? = some event →
    ∃ asker, event = .tick asker
  joined : ∀ link ∈ links, scenario.Joins simulation.layout link
  asks : List.Forall₂ scenario.Asks asking simulation.consumers

variable {scenario : Scenario} {links : List LinkSetting} {asking : List ConsumerSetting}
  {simulation : Simulation} {place : Nat} {face : FaceId}

theorem SetUp.forwarderAt? (setUp : SetUp scenario links asking simulation)
    (within : place < scenario.nodes.length) :
    ∃ forwarder, simulation.forwarderAt? place = some forwarder := by
  rw [← setUp.sized] at within
  exact ⟨_, by rw [Simulation.forwarderAt?, List.getElem?_eq_getElem within]; rfl⟩

theorem Issued.updateNode {other : Nat} (issued : simulation.Issued other face)
    {change : Forwarder → Forwarder}
    (more : ∀ (forwarder : Forwarder) {face : FaceId}, forwarder.faces.contains face = true →
      (change forwarder).faces.contains face = true) :
    (simulation.updateNode place change).Issued other face := by
  obtain ⟨forwarder, found, present⟩ := issued
  refine ⟨_, by rw [forwarderAt?_updateNode, found]; rfl, ?_⟩
  split
  · exact more forwarder present
  · exact present

theorem SetUp.updateNode (setUp : SetUp scenario links asking simulation)
    {change : Forwarder → Forwarder}
    (keeps : ∀ {forwarder : Forwarder}, simulation.forwarderAt? place = some forwarder →
      forwarder.Untouched → (change forwarder).Untouched)
    (more : ∀ (forwarder : Forwarder) {face : FaceId}, forwarder.faces.contains face = true →
      (change forwarder).faces.contains face = true) :
    SetUp scenario links asking (simulation.updateNode place change) where
  sized := (List.length_modify _ _ _).trans setUp.sized
  stop := setUp.stop
  proper := by rw [layout_updateNode]; exact setUp.proper
  untouched found := by
    rw [forwarderAt?_updateNode] at found
    obtain ⟨old, atPlace, rfl⟩ := Option.map_eq_some_iff.mp found
    split
    · rename_i here
      subst here
      exact keeps atPlace (setUp.untouched atPlace)
    · exact setUp.untouched atPlace
  issued uses := by
    rw [layout_updateNode] at uses
    exact (setUp.issued uses).updateNode more
  clock := setUp.clock
  numbered := setUp.numbered
  ticks := setUp.ticks
  joined := by rw [layout_updateNode]; exact setUp.joined
  asks := setUp.asks

theorem SetUp.addRoute (setUp : SetUp scenario links asking simulation) (under : Name)
    {hop : NextHop} (issued : simulation.Issued place hop.face) : SetUp scenario links asking
      (simulation.updateNode place fun forwarder => forwarder.addRoute under hop) := by
  refine setUp.updateNode (fun found untouched => ?_) fun _ _ => id
  obtain ⟨forwarder, found', present⟩ := issued
  cases found.symm.trans found'
  exact untouched.addRoute under present

/-- A new face gets a number that no face of its node has had. -/
theorem SetUp.addFace (setUp : SetUp scenario links asking simulation)
    (within : place < scenario.nodes.length) (face : Face) :
    ∃ id next, simulation.addFace place face = (id, next) ∧ SetUp scenario links asking next ∧
      next.layout = simulation.layout ∧ ¬ simulation.Issued place id ∧ next.Issued place id ∧
        ∀ {other : Nat} {old : FaceId}, simulation.Issued other old → next.Issued other old := by
  obtain ⟨forwarder, found⟩ := setUp.forwarderAt? within
  have more (forwarder : Forwarder) {old : FaceId} (present : forwarder.faces.contains old = true) :
      (forwarder.addFace face).2.faces.contains old = true :=
    FaceTable.contains_add_of_contains present face
  refine ⟨_, _, addFace_eq found face,
    setUp.updateNode (fun _ untouched => untouched.addFace face) more, layout_updateNode _,
    ?_, ?_, fun issued => issued.updateNode more⟩
  · rintro ⟨same, found', present⟩
    cases found.symm.trans found'
    exact Nat.lt_irrefl _ ((setUp.untouched found).bounded present)
  · refine ⟨_, by rw [forwarderAt?_updateNode, found]; exact congrArg some (if_pos rfl), ?_⟩
    exact forwarder.faces.contains_add face

theorem SetUp.free (setUp : SetUp scenario links asking simulation)
    (new : ¬ simulation.Issued place face) : ¬ simulation.layout.Uses place face :=
  fun uses => new (setUp.issued uses)

theorem layout_join (a b : Nat) (endA endB : LinkEnd) :
    ((simulation.addLinkEnd a endA).addLinkEnd b endB).layout =
      simulation.layout.join a b endA endB := by
  rw [layout_addLinkEnd, layout_addLinkEnd]
  rfl

theorem SetUp.within (setUp : SetUp scenario links asking simulation)
    (within : place < scenario.nodes.length) : place < simulation.layout.ends.length := by
  rw [layout, List.length_map, setUp.sized]
  exact within

theorem SetUp.join (setUp : SetUp scenario links asking simulation) {a b : Nat} {endA : LinkEnd}
    (withinA : a < scenario.nodes.length) (withinB : b < scenario.nodes.length)
    (peer : endA.peerNode = b) (issuedA : simulation.Issued a endA.face)
    (issuedB : simulation.Issued b endA.peerFace) (freeA : ¬ simulation.layout.Uses a endA.face)
    (freeB : ¬ simulation.layout.Uses b endA.peerFace) (distinct : a = b → endA.face ≠ endA.peerFace) :
    SetUp scenario links asking ((simulation.addLinkEnd a endA).addLinkEnd b (endA.back a)) where
  sized := (List.length_modify _ _ _).trans ((List.length_modify _ _ _).trans setUp.sized)
  stop := setUp.stop
  proper := by
    rw [layout_join]
    exact setUp.proper.join (setUp.within withinA) (setUp.within withinB) peer freeA freeB distinct
  untouched found := by
    rw [forwarderAt?_addLinkEnd, forwarderAt?_addLinkEnd] at found
    exact setUp.untouched found
  issued {place face} uses := by
    have same : simulation.Issued place face →
        ((simulation.addLinkEnd a endA).addLinkEnd b (endA.back a)).Issued place face := by
      rintro ⟨forwarder, found, low⟩
      exact ⟨forwarder, by rw [forwarderAt?_addLinkEnd, forwarderAt?_addLinkEnd]; exact found, low⟩
    refine same ?_
    rw [layout_join] at uses
    rcases uses with ⟨linkEnd, member, rfl⟩ | app
    · rw [Layout.endsAt_join (setUp.within withinA) (setUp.within withinB), List.mem_append,
        List.mem_append] at member
      rcases member with old | new | new
      · exact setUp.issued (Or.inl ⟨linkEnd, old, rfl⟩)
      · split at new
        · rename_i here
          rw [List.mem_singleton.mp new, ← here]
          exact issuedA
        · cases new
      · split at new
        · rename_i here
          rw [List.mem_singleton.mp new, ← here]
          exact issuedB
        · cases new
    · exact setUp.issued (Or.inr app)
  clock := setUp.clock
  numbered := setUp.numbered
  ticks := setUp.ticks
  joined link member := by
    obtain ⟨p, q, linkEnd, foundP, foundQ, atP, leads, atQ, delay⟩ := setUp.joined link member
    have grows (place : Nat) : simulation.layout.endsAt place ⊆
        (simulation.layout.join a b endA (endA.back a)).endsAt place := by
      rw [Layout.endsAt_join (setUp.within withinA) (setUp.within withinB)]
      exact List.subset_append_left _ _
    rw [layout_join]
    exact ⟨p, q, linkEnd, foundP, foundQ, grows p atP, leads, grows q atQ, delay⟩
  asks := setUp.asks

theorem SetUp.addLink (setUp : SetUp scenario links asking simulation) (valid : scenario.Valid)
    {link : LinkSetting} (listed : link ∈ scenario.links) :
    ∃ next, addLink scenario simulation link = .ok next ∧
      SetUp scenario (links ++ [link]) asking next := by
  obtain ⟨a, b, foundA, foundB, withinA, withinB⟩ := valid.link listed
  obtain ⟨faceA, withA, addedA, setUpA, layoutA, newA, issuedA, _⟩ := setUp.addFace withinA
    { isLocal := false, label := some (link.a ++ "->" ++ link.b),
      address := scenario.nodes[a]?.bind (·.address) }
  obtain ⟨faceB, withB, addedB, setUpB, layoutB, newB, issuedB, issued⟩ := setUpA.addFace withinB
    { isLocal := false, label := some (link.b ++ "->" ++ link.a),
      address := scenario.nodes[b]?.bind (·.address) }
  obtain ⟨endA, isEnd⟩ : ∃ endA : LinkEnd, endA =
    { face := faceA, peerNode := b, peerFace := faceB, delay := Duration.ofMillis link.delay } :=
      ⟨_, rfl⟩
  have made : Simulation.addLink scenario simulation link =
      .ok ((withB.addLinkEnd a endA).addLinkEnd b (endA.back a)) := by
    rw [Simulation.addLink, Scenario.findNode_of_place? foundA, Scenario.findNode_of_place? foundB]
    simp only [bind, Except.bind, addedA, addedB, isEnd]
    rfl
  have joined : SetUp scenario links asking ((withB.addLinkEnd a endA).addLinkEnd b (endA.back a)) := by
    have freeA := setUp.free newA
    have freeB := setUpA.free newB
    rw [layoutA] at freeB
    rw [← layoutA, ← layoutB] at freeA
    refine setUpB.join withinA withinB (by rw [isEnd]) ?_ ?_ ?_ ?_ ?_ <;> rw [isEnd]
    · exact issued issuedA
    · exact issuedB
    · exact freeA
    · rw [layoutB, layoutA]
      exact freeB
    · rintro rfl same
      exact newB ((show faceA = faceB from same) ▸ issuedA)
  refine ⟨_, made, { joined with joined := fun other member => ?_ }⟩
  rcases List.mem_append.mp member with old | new
  · exact joined.joined other old
  · rw [List.mem_singleton.mp new, layout_join]
    have ends := @Layout.endsAt_join withB.layout a b endA (endA.back a) (setUpB.within withinA)
      (setUpB.within withinB)
    refine ⟨a, b, endA, foundA, foundB, ?_, by rw [isEnd], ?_, by rw [isEnd]⟩
    · rw [ends, if_pos rfl]
      exact List.mem_append_right _ (List.mem_append_left _ List.mem_cons_self)
    · rw [ends, if_pos rfl]
      exact List.mem_append_right _ (List.mem_append_right _ List.mem_cons_self)

/-- A node at the end of a link finds a face of its own towards the other. -/
theorem exists_faceTowards {node : Node} {linkEnd : LinkEnd} (member : linkEnd ∈ node.linkEnds) :
    ∃ first ∈ node.linkEnds, node.faceTowards? linkEnd.peerNode = some first.face := by
  have some : (node.linkEnds.find? (·.peerNode == linkEnd.peerNode)).isSome :=
    List.find?_isSome.mpr ⟨linkEnd, member, beq_self_eq_true _⟩
  obtain ⟨first, found⟩ := Option.isSome_iff_exists.mp some
  exact ⟨first, List.mem_of_find?_eq_some found, by rw [Node.faceTowards?, found]; rfl⟩

/-- A node has a face towards each node that it is linked to. -/
theorem SetUp.faceTowards (setUp : SetUp scenario links asking simulation) {linkEnd : LinkEnd}
    (member : linkEnd ∈ simulation.layout.endsAt place) :
    ∃ face, simulation.nodes[place]?.bind (·.faceTowards? linkEnd.peerNode) = some face ∧
      simulation.Issued place face := by
  obtain ⟨node, atPlace, listed⟩ := mem_endsAt.mp member
  obtain ⟨first, listed', towards⟩ := exists_faceTowards listed
  exact ⟨first.face, by rw [atPlace]; exact towards,
    setUp.issued (Or.inl ⟨first, mem_endsAt.mpr ⟨node, atPlace, listed'⟩, rfl⟩)⟩

theorem SetUp.addRouteSetting (setUp : SetUp scenario scenario.links asking simulation)
    (valid : scenario.Valid) {route : RouteSetting} (listed : route ∈ scenario.routes) :
    ∃ next, Simulation.addRoute scenario simulation route = .ok next ∧
      SetUp scenario scenario.links asking next := by
  obtain ⟨under, parsed, link, isLink, joins⟩ := valid.route listed
  obtain ⟨a, b, linkEnd, foundA, foundB, atA, peer, atB, _⟩ := setUp.joined link isLink
  obtain ⟨place, other, found, found', face, towards, issued⟩ : ∃ place other,
      scenario.place? route.node = some place ∧ scenario.place? route.nextHop = some other ∧
        ∃ face, simulation.nodes[place]?.bind (·.faceTowards? other) = some face ∧
          simulation.Issued place face := by
    rcases joins with ⟨same, same'⟩ | ⟨same, same'⟩ <;> rw [same] at foundA <;> rw [same'] at foundB
    · exact ⟨a, b, foundA, foundB, by rw [← peer]; exact setUp.faceTowards atA⟩
    · exact ⟨b, a, foundB, foundA, setUp.faceTowards atB⟩
  refine ⟨simulation.updateNode place fun forwarder => forwarder.addRoute under
    { face, cost := route.cost, targetHint := route.targetHint }, ?_, setUp.addRoute under issued⟩
  rw [Simulation.addRoute, Scenario.findNode_of_place? found, Scenario.findNode_of_place? found']
  simp only [bind, Except.bind, towards, findPrefix_of_ok parsed]
  rfl

/-- An application comes to a face that is still free. -/
theorem SetUp.settle (setUp : SetUp scenario links asking simulation) (next : Simulation)
    {asking' : List ConsumerSetting} (nodes : next.nodes = simulation.nodes)
    (stop : next.stop = simulation.stop) (free : ¬ simulation.layout.Uses place face)
    (issued : simulation.Issued place face)
    (apps : next.layout.apps.Perm ((place, face) :: simulation.layout.apps))
    (clock : next.now = simulation.now) (numbered : next.timers.Numbered)
    (ticks : ∀ {timer : TimerId} {event : Event}, next.timers.running[timer]? = some event →
      ∃ asker, event = .tick asker)
    (asks : List.Forall₂ scenario.Asks asking' next.consumers) :
    SetUp scenario links asking' next := by
  have ends : next.layout.ends = simulation.layout.ends := by rw [layout, layout, nodes]
  have endsAt : next.layout.endsAt = simulation.layout.endsAt := by
    funext place
    rw [Layout.endsAt, Layout.endsAt, ends]
  refine ⟨nodes ▸ setUp.sized, stop.trans setUp.stop, setUp.proper.settle free ends apps, ?_, ?_,
    clock.trans setUp.clock, numbered, ticks, ?_, asks⟩
  · intro place forwarder found
    rw [Simulation.forwarderAt?, nodes] at found
    exact setUp.untouched found
  · intro other old uses
    rw [Issued, Simulation.forwarderAt?, nodes]
    rw [Layout.Uses, endsAt, apps.mem_iff, List.mem_cons] at uses
    rcases uses with link | new | app
    · exact setUp.issued (Or.inl link)
    · cases new
      exact issued
    · exact setUp.issued (Or.inr app)
  · intro link member
    obtain ⟨a, b, linkEnd, foundA, foundB, atA, peer, atB, delay⟩ := setUp.joined link member
    exact ⟨a, b, linkEnd, foundA, foundB, endsAt ▸ atA, peer, endsAt ▸ atB, delay⟩

theorem SetUp.addProducer (setUp : SetUp scenario links asking simulation)
    (valid : scenario.Valid) {setting : ProducerSetting} (listed : setting ∈ scenario.producers) :
    ∃ next, Simulation.addProducer scenario simulation setting = .ok next ∧
      SetUp scenario links asking next := by
  obtain ⟨place, under, found, within, parsed⟩ := valid.producer listed
  obtain ⟨face, settled, added, setUp', layout, new, issued, _⟩ := setUp.addFace within
    { isLocal := true, label := some ("producer " ++ under.toUri) }
  obtain ⟨next, isNext⟩ : ∃ next, next = settled.updateNode place fun forwarder =>
    forwarder.addRoute under { face, cost := 0 } := ⟨_, rfl⟩
  have routed : SetUp scenario links asking next := by
    rw [isNext]
    exact setUp'.addRoute under issued
  have issued' : next.Issued place face := by
    rw [isNext]
    exact issued.updateNode fun _ _ => id
  have free : ¬ next.layout.Uses place face := by
    rw [isNext, layout_updateNode, layout]
    exact setUp.free new
  refine ⟨{ next with producers := next.producers ++ [.start place face under setting.payloadSize
    (setting.freshness.map Duration.ofMillis)] }, ?_, ?_⟩
  · rw [Simulation.addProducer, Scenario.findNode_of_place? found]
    simp only [bind, Except.bind, findPrefix_of_ok parsed, added, isNext]
    rfl
  · refine routed.settle _ rfl rfl free issued' ?_ rfl routed.numbered routed.ticks routed.asks
    rw [Layout.apps, Layout.apps, Simulation.layout, Simulation.layout, List.map_append,
      ← List.append_assoc]
    exact List.perm_append_singleton _ _

theorem SetUp.addConsumer (setUp : SetUp scenario links asking simulation)
    (valid : scenario.Valid) {setting : ConsumerSetting} (listed : setting ∈ scenario.consumers)
    (span : setting.interval?.isSome = true) :
    ∃ next, Simulation.addConsumer scenario simulation setting = .ok next ∧
      SetUp scenario links (asking ++ [setting]) next := by
  obtain ⟨place, under, found, within, parsed⟩ := valid.consumer listed
  obtain ⟨interval, isSpan⟩ := Option.isSome_iff_exists.mp span
  obtain ⟨face, settled, added, setUp', layout, new, issued, _⟩ := setUp.addFace within
    { isLocal := true, label := some ("consumer " ++ under.toUri) }
  have free := setUp.free new
  rw [← layout] at free
  refine ⟨_, ?_, setUp'.settle { settled with
    timers := (settled.timers.scheduleAt (Duration.ofMillis setting.start)
      (.tick settled.consumers.length)).2
    consumers := settled.consumers ++ [{
      node := place, face, under, interval
      start := Duration.ofMillis setting.start
      lifetime := Duration.ofMillis setting.lifetime
      mustBeFresh := setting.mustBeFresh }] } rfl rfl free issued ?_ rfl
    (setUp'.numbered.scheduleAt _ _) ?_ ?_⟩
  · rw [Simulation.addConsumer, Scenario.findNode_of_place? found]
    simp only [bind, Except.bind, findPrefix_of_ok parsed, added, isSpan]
    rfl
  · rw [Layout.apps, Layout.apps, Simulation.layout, Simulation.layout, List.map_append,
      List.append_assoc]
    exact List.perm_middle
  · intro timer event running
    rw [Timers.running_scheduleAt] at running
    split at running
    · cases running
      exact ⟨_, rfl⟩
    · exact setUp'.ticks running
  · exact List.rel_append setUp'.asks (.cons ⟨found, parsed, rfl, ⟨rfl, rfl, rfl⟩, ⟨rfl, rfl, rfl⟩⟩ .nil)

/-- The nodes are there before anything joins them. -/
theorem setUp_bare (valid : scenario.Valid) (nonces : NonceSource) :
    ∃ nodes, scenario.nodes.mapM (Node.ofSetting scenario.forwarder nonces) = .ok nodes ∧
      (∀ node ∈ nodes, Forwarder.ofSettings scenario.forwarder nonces = .ok node.forwarder ∧
        node.linkEnds = []) ∧
      SetUp scenario [] [] { stop := Duration.ofMillis scenario.duration, nodes, nonces } := by
  obtain ⟨forwarder, made⟩ := Forwarder.exists_ofSettings valid.settings nonces
  have each : Node.ofSetting scenario.forwarder nonces =
      fun setting => pure { name := setting.name, forwarder } := by
    funext setting
    rw [Node.ofSetting, made]
    rfl
  obtain ⟨nodes, isNodes⟩ : ∃ nodes : List Node, nodes = scenario.nodes.map fun setting =>
    { name := setting.name, forwarder } := ⟨_, rfl⟩
  have bare {node : Node} (member : node ∈ nodes) :
      node.forwarder = forwarder ∧ node.linkEnds = [] := by
    rw [isNodes] at member
    obtain ⟨setting, _, rfl⟩ := List.mem_map.mp member
    exact ⟨rfl, rfl⟩
  obtain ⟨start, isStart⟩ : ∃ start : Simulation, start =
    { stop := Duration.ofMillis scenario.duration, nodes, nonces } := ⟨_, rfl⟩
  have noEnds (place : Nat) (linkEnd : LinkEnd) : linkEnd ∉ start.layout.endsAt place := by
    intro member
    obtain ⟨node, found, listed⟩ := mem_endsAt.mp member
    rw [isStart] at found
    rw [(bare (List.mem_of_getElem? found)).2] at listed
    cases listed
  have noApps : start.layout.apps = [] := by
    rw [isStart]
    rfl
  refine ⟨nodes, by rw [each, List.mapM_pure, isNodes]; rfl,
    fun node member => ⟨(bare member).1 ▸ made, (bare member).2⟩, ?_⟩
  rw [← isStart]
  refine ⟨by rw [isStart, isNodes]; exact List.length_map _, by rw [isStart], ?_, ?_, ?_,
    by rw [isStart]; rfl, ?_, ?_, nofun, by rw [isStart]; exact .nil⟩
  · refine ⟨fun place => ?_, by rw [noApps]; exact .nil, fun member => absurd member (noEnds _ _),
      fun member => absurd member (noEnds _ _)⟩
    rw [List.eq_nil_iff_forall_not_mem.mpr (noEnds place)]
    exact .nil
  · intro place here found
    obtain ⟨node, atPlace, rfl⟩ := Option.map_eq_some_iff.mp found
    rw [isStart] at atPlace
    rw [(bare (List.mem_of_getElem? atPlace)).1]
    exact Forwarder.untouched_start made
  · rintro place face (⟨linkEnd, member, _⟩ | app)
    · exact absurd member (noEnds place linkEnd)
    · rw [noApps] at app
      cases app
  · rw [isStart]
    exact Timers.numbered_empty
  · rw [isStart]
    intro timer event running
    simp [Timers.empty] at running

/-- What each part of a scenario keeps up when it is added, with the consumers so far. -/
structure KeptUp (scenario : Scenario) (Holds : List ConsumerSetting → Simulation → Prop) : Prop where
  link : ∀ {simulation next : Simulation} {link : LinkSetting}, link ∈ scenario.links →
    Simulation.addLink scenario simulation link = .ok next → Holds [] simulation → Holds [] next
  route : ∀ {simulation next : Simulation} {route : RouteSetting},
    Simulation.addRoute scenario simulation route = .ok next → Holds [] simulation → Holds [] next
  producer : ∀ {simulation next : Simulation} {setting : ProducerSetting},
    SetUp scenario scenario.links [] simulation →
      Simulation.addProducer scenario simulation setting = .ok next → Holds [] simulation → Holds [] next
  consumer : ∀ {done : List ConsumerSetting} {simulation next : Simulation}
    {setting : ConsumerSetting}, SetUp scenario scenario.links done simulation →
      Simulation.addConsumer scenario simulation setting = .ok next →
        Holds done simulation → Holds (done ++ [setting]) next

/-- A scenario that passes its check can be set up, and what its parts keep up holds of it. -/
theorem exists_ofScenario_keeping (passed : scenario.check = .ok ())
    (spans : ∀ setting ∈ scenario.consumers, setting.interval?.isSome = true) (nonces : NonceSource)
    {Holds : List ConsumerSetting → Simulation → Prop} (kept : KeptUp scenario Holds)
    (bare : ∀ nodes : List Node,
      (∀ node ∈ nodes, Forwarder.ofSettings scenario.forwarder nonces = .ok node.forwarder ∧
        node.linkEnds = []) → Holds [] { stop := Duration.ofMillis scenario.duration, nodes, nonces }) :
    ∃ start, ofScenario scenario nonces = .ok start ∧
      SetUp scenario scenario.links scenario.consumers start ∧ Holds scenario.consumers start := by
  have valid := Scenario.valid_of_check passed
  obtain ⟨nodes, made, fresh, setUp⟩ := setUp_bare valid nonces
  obtain ⟨linked, links, setUp, holds⟩ := foldlM_keeps
    (fun done simulation => SetUp scenario done [] simulation ∧ Holds [] simulation)
    (fun _ _ _ listed ⟨setUp, holds⟩ => (setUp.addLink valid listed).imp
      fun _ ⟨added, setUp⟩ => ⟨added, setUp, kept.link listed added holds⟩) ⟨setUp, bare nodes fresh⟩
  obtain ⟨routed, routes, setUp, holds⟩ := foldlM_keeps
    (fun _ simulation => SetUp scenario scenario.links [] simulation ∧ Holds [] simulation)
    (fun _ _ _ listed ⟨setUp, holds⟩ => (setUp.addRouteSetting valid listed).imp
      fun _ ⟨added, setUp⟩ => ⟨added, setUp, kept.route added holds⟩) ⟨setUp, holds⟩
  obtain ⟨producing, producers, setUp, holds⟩ := foldlM_keeps
    (fun _ simulation => SetUp scenario scenario.links [] simulation ∧ Holds [] simulation)
    (fun _ _ _ listed ⟨setUp, holds⟩ => (setUp.addProducer valid listed).imp
      fun _ ⟨added, after⟩ => ⟨added, after, kept.producer setUp added holds⟩) ⟨setUp, holds⟩
  obtain ⟨start, consumers, setUp, holds⟩ := foldlM_keeps
    (fun done simulation => SetUp scenario scenario.links done simulation ∧ Holds done simulation)
    (fun _ _ _ listed ⟨setUp, holds⟩ => (setUp.addConsumer valid listed (spans _ listed)).imp
      fun _ ⟨added, after⟩ => ⟨added, after, kept.consumer setUp added holds⟩) ⟨setUp, holds⟩
  refine ⟨start, ?_, setUp, holds⟩
  rw [ofScenario]
  simp only [bind_eq_ok]
  exact ⟨nodes, made, linked, links, routed, routes, producing, producers, consumers⟩

/-- A scenario that passes its check can be set up, with all its links and consumers. -/
theorem exists_ofScenario (passed : scenario.check = .ok ())
    (spans : ∀ setting ∈ scenario.consumers, setting.interval?.isSome = true) (nonces : NonceSource) :
    ∃ start, ofScenario scenario nonces = .ok start ∧
      SetUp scenario scenario.links scenario.consumers start := by
  have nothing : KeptUp scenario fun _ _ => True :=
    ⟨fun _ _ _ => trivial, fun _ _ => trivial, fun _ _ _ => trivial, fun _ _ _ => trivial⟩
  obtain ⟨start, made, setUp, _⟩ :=
    exists_ofScenario_keeping passed spans nonces nothing fun _ _ => trivial
  exact ⟨start, made, setUp⟩

theorem SetUp.orderly (setUp : SetUp scenario links asking simulation) : simulation.Orderly where
  proper := setUp.proper
  sound found := (setUp.untouched (by rw [Simulation.forwarderAt?, found]; rfl)).sound
  clock found := by
    rw [setUp.clock]
    exact (setUp.untouched (by rw [Simulation.forwarderAt?, found]; rfl)).clock
  numbered := setUp.numbered
  ahead _ := by
    rw [setUp.clock]
    exact Nat.zero_le _
  bound running := by
    obtain ⟨_, same⟩ := setUp.ticks running
    cases same

theorem SetUp.not_waits (setUp : SetUp scenario links asking simulation) (wanted : Packet → Bool) :
    ¬ simulation.Waits place face wanted := by
  rintro ⟨node, found, packet, waits, _⟩
  rw [(setUp.untouched (by rw [Simulation.forwarderAt?, found]; rfl)).outbox] at waits
  cases waits

theorem SetUp.settled (setUp : SetUp scenario links asking simulation) : simulation.Settled :=
  ⟨fun _ => setUp.not_waits _, fun _ => setUp.not_waits _, fun _ => setUp.not_waits _⟩

end Simulation

end NamedData
