import Mathlib.Data.List.Nodup
import NamedData.Proofs.EntrySteps
import NamedData.Proofs.LongestPrefix
import NamedData.Proofs.NameSearch

namespace NamedData

namespace Fib

/-- The routes that the operations on routes can make. -/
inductive Made : Fib → Prop
  | empty : Made .empty
  | addNextHop {fib : Fib} (name : Name) (hop : NextHop) : Made fib → Made (fib.addNextHop name hop)
  | removeNextHop {fib : Fib} (name : Name) (face : FaceId) :
      Made fib → Made (fib.removeNextHop name face)
  | removeFace {fib : Fib} (face : FaceId) : Made fib → Made (fib.removeFace face)
  | bumpCost {fib : Fib} (name : Name) (face : FaceId) (delta : Cost) :
      Made fib → Made (fib.bumpCost name face delta)

/-- No prefix has two ways through one face. -/
def Distinct (fib : Fib) : Prop :=
  ∀ (under : Name) (hops : List NextHop), fib.routes[under]? = some hops →
    (hops.map NextHop.face).Nodup

theorem perm_place (hop : NextHop) (hops : List NextHop) : (place hop hops).Perm (hop :: hops) := by
  induction hops with
  | nil => exact .refl _
  | cons first rest ih =>
    rw [place]
    split
    · exact .refl _
    · exact (ih.cons first).trans (.swap hop first rest)

theorem nodup_without {hops : List NextHop} (face : FaceId)
    (once : (hops.map NextHop.face).Nodup) : ((without face hops).map NextHop.face).Nodup :=
  once.sublist (List.filter_sublist.map _)

theorem nodup_place_without {hops : List NextHop} (hop : NextHop)
    (once : (hops.map NextHop.face).Nodup) :
    ((place hop (without hop.face hops)).map NextHop.face).Nodup := by
  rw [((perm_place _ _).map _).nodup_iff, List.map_cons, List.nodup_cons]
  refine ⟨fun member => ?_, nodup_without _ once⟩
  obtain ⟨other, kept, same⟩ := List.mem_map.mp member
  exact bne_iff_ne.mp (List.mem_filter.mp kept).2 same

theorem Distinct.hops {fib : Fib} (distinct : fib.Distinct) (under : Name) :
    ((fib.routes[under]?.getD []).map NextHop.face).Nodup := by
  cases found : fib.routes[under]? with
  | none => exact List.nodup_nil
  | some hops => exact distinct under hops found

theorem Distinct.insert {fib : Fib} (distinct : fib.Distinct) (name : Name) {hops : List NextHop}
    (once : (hops.map NextHop.face).Nodup) : (⟨fib.routes.insert name hops⟩ : Fib).Distinct := by
  intro under others found
  rw [Std.ExtTreeMap.getElem?_insert] at found
  split at found
  · cases found
    exact once
  · exact distinct under others found

theorem Distinct.addNextHop {fib : Fib} (distinct : fib.Distinct) (name : Name) (hop : NextHop) :
    (fib.addNextHop name hop).Distinct :=
  distinct.insert name (nodup_place_without hop (distinct.hops name))

/-- The hops that are left without a face, if any are. -/
def left (face : FaceId) (hops : List NextHop) : Option (List NextHop) :=
  if (without face hops).isEmpty then none else some (without face hops)

theorem left_eq_some {face : FaceId} {hops others : List NextHop}
    (kept : left face hops = some others) :
    others = without face hops ∧ others ≠ [] := by
  unfold left at kept
  split at kept
  · cases kept
  · rename_i some
    cases kept
    exact ⟨rfl, fun nothing => some (List.isEmpty_iff.mpr nothing)⟩

theorem getElem?_removeNextHop (fib : Fib) (name : Name) (face : FaceId) (under : Name) :
    (fib.removeNextHop name face).routes[under]? =
      if name = under then fib.routes[under]?.bind (left face) else fib.routes[under]? := by
  by_cases same : name = under
  · subst same
    rw [if_pos rfl, removeNextHop]
    cases found : fib.routes[name]? with
    | none => exact found
    | some hops =>
      dsimp only
      rw [setNextHops, Option.bind_some, left]
      split
      · exact (NameTable.getElem?_erase _ _ _).trans (if_pos rfl)
      · exact (NameTable.getElem?_insert _ _ _ _).trans (if_pos rfl)
  · rw [if_neg same, removeNextHop]
    split
    · rw [setNextHops]
      split
      · exact (NameTable.getElem?_erase _ _ _).trans (if_neg same)
      · exact (NameTable.getElem?_insert _ _ _ _).trans (if_neg same)
    · rfl

theorem getElem?_removeFace (fib : Fib) (face : FaceId) (under : Name) :
    (fib.removeFace face).routes[under]? = fib.routes[under]?.bind (left face) :=
  Std.ExtTreeMap.getElem?_filterMap'

theorem Distinct.left {fib : Fib} (distinct : fib.Distinct) {under : Name} {face : FaceId}
    {hops : List NextHop} (kept : fib.routes[under]?.bind (Fib.left face) = some hops) :
    (hops.map NextHop.face).Nodup := by
  obtain ⟨old, here, kept'⟩ := Option.bind_eq_some_iff.mp kept
  obtain ⟨rfl, _⟩ := left_eq_some kept'
  exact nodup_without face (distinct under old here)

theorem Distinct.removeNextHop {fib : Fib} (distinct : fib.Distinct) (name : Name)
    (face : FaceId) : (fib.removeNextHop name face).Distinct := by
  intro under hops found
  rw [getElem?_removeNextHop] at found
  split at found
  · exact distinct.left found
  · exact distinct under hops found

theorem Distinct.removeFace {fib : Fib} (distinct : fib.Distinct) (face : FaceId) :
    (fib.removeFace face).Distinct := by
  intro under hops found
  rw [getElem?_removeFace] at found
  exact distinct.left found

theorem Made.distinct {fib : Fib} (made : fib.Made) : fib.Distinct := by
  induction made with
  | empty =>
    intro under hops found
    simp [Fib.empty] at found
  | addNextHop name hop _ ih => exact ih.addNextHop name hop
  | removeNextHop name face _ ih => exact ih.removeNextHop name face
  | removeFace face _ ih => exact ih.removeFace face
  | bumpCost name face delta _ ih =>
    unfold Fib.bumpCost
    split
    · exact ih.addNextHop _ _
    · exact ih

/-- The entry that is found is that of the longest prefix that is listed. -/
theorem longestPrefixMatch_cases (fib : Fib) (name : Name) :
    (∃ under hops, name.Longest (fun under => fib.routes[under]?.isSome = true) under ∧
      fib.routes[under]? = some hops ∧ fib.longestPrefixMatch name = ⟨under, hops⟩) ∨
    (∀ under : Name, under.isPrefixOf name = true → fib.routes[under]? = none) ∧
      fib.longestPrefixMatch name = ⟨Name.root, []⟩ := by
  rw [longestPrefixMatch]
  cases found : fib.routes.longestPrefix? name with
  | none => exact Or.inr ⟨NameTable.longestPrefix?_eq_none_iff.mp found, rfl⟩
  | some row =>
    obtain ⟨under, hops⟩ := row
    obtain ⟨longest, here⟩ := NameTable.longestPrefix?_eq_some_iff.mp found
    exact Or.inl ⟨under, hops, longest, here, rfl⟩

theorem Distinct.longestPrefixMatch {fib : Fib} (distinct : fib.Distinct) (name : Name) :
    ((fib.longestPrefixMatch name).nextHops.map NextHop.face).Nodup := by
  rcases fib.longestPrefixMatch_cases name with ⟨under, hops, _, here, same⟩ | ⟨_, same⟩
  · rw [same]
    exact distinct under hops here
  · rw [same]
    exact List.nodup_nil

end Fib

namespace Forwarder

variable {action : Action} {before after forwarder : Forwarder} {id : PitId}

theorem Step.routes (step : Step action before after) (routes : before.fib.Made) :
    after.fib.Made := by
  cases step with
  | raises name face penalty => exact .bumpCost name face penalty routes
  | asks =>
    rw [emitInterest_eq]
    exact routes
  | answers =>
    rw [sendData_eq]
    exact routes
  | notes =>
    rw [noteDeadNonces_eq]
    exact routes
  | _ => exact routes

theorem Steps.routes (steps : Steps action before after) (routes : before.fib.Made) :
    after.fib.Made := by
  induction steps with
  | refl => exact routes
  | tail _ step ih => exact step.routes ih

theorem routes_act (filed : forwarder.pit.Filed) (routes : forwarder.fib.Made)
    (host : ∀ change, action = .changeRoutes change → (change forwarder.fib).Made) :
    (forwarder.act action).fib.Made := by
  refine Steps.routes (act_steps filed action) ?_
  cases action with
  | changeRoutes change => exact host change rfl
  | addReservedFace =>
    simp only [begun, act, addReservedFace]
    split <;> exact routes
  | removeFace face =>
    simp only [begun]
    split
    · exact .removeFace face routes
    · exact routes
  | fireNext =>
    simp only [begun]
    split <;> exact routes
  | passTime =>
    simp only [begun, act]
    split <;> exact routes
  | _ => exact routes

variable {hops : List NextHop}

/-- Packets were handed out, at most one Interest to each face. -/
def HandsOutOnce (before after : Forwarder) : Prop :=
  ∃ packets, after.outbox.sent = before.outbox.sent ++ packets ∧
    ((packets.filter (·.2.isInterest)).map (·.1)).Nodup

/-- Packets were handed out, and Interests only to the faces of some hops, in their order. -/
def HandsOutBy (hops : List NextHop) (before after : Forwarder) : Prop :=
  ∃ packets, after.outbox.sent = before.outbox.sent ++ packets ∧
    ((packets.filter (·.2.isInterest)).map (·.1)).Sublist (hops.map NextHop.face)

theorem HandsOutBy.once (handed : HandsOutBy hops before after)
    (distinct : (hops.map NextHop.face).Nodup) : HandsOutOnce before after := by
  obtain ⟨packets, sent, listed⟩ := handed
  exact ⟨packets, sent, distinct.sublist listed⟩

theorem HandsOutBy.of_same (same : after.outbox = before.outbox) : HandsOutBy hops before after :=
  ⟨[], by rw [same, List.append_nil], List.nil_sublist _⟩

/-- What happens before, while nothing is handed out, does not matter. -/
theorem HandsOutBy.since {first : Forwarder} (handed : HandsOutBy hops before after)
    (outbox : before.outbox = first.outbox) : HandsOutBy hops first after := by
  obtain ⟨packets, sent, listed⟩ := handed
  exact ⟨packets, by rw [sent, outbox], listed⟩

theorem HandsOutBy.sendInterest {hop : NextHop} (listed : hop ∈ hops) (id : PitId)
    (hint : Option String) (newNonce : Bool) :
    HandsOutBy hops forwarder (forwarder.sendInterest id hop.face hint newNonce) := by
  rcases forwarder.sent_sendInterest id hop.face hint newNonce with
    ⟨same, _⟩ | ⟨_, _, _, _, _, _, _, _, sent, _⟩
  · exact .of_same same
  · exact ⟨_, sent, List.singleton_sublist.mpr (List.mem_map_of_mem listed)⟩

theorem HandsOutOnce.sendInterest (id : PitId) (face : FaceId) (hint : Option String)
    (newNonce : Bool) : HandsOutOnce forwarder (forwarder.sendInterest id face hint newNonce) :=
  (HandsOutBy.sendInterest (List.mem_singleton_self { face, cost := 0 }) id hint newNonce).once
    (List.nodup_singleton _)

/-- The faces that get an Interest are some of the next hops, in their order. -/
theorem sent_flood (id : PitId) (hops : List NextHop) :
    ∃ packets, (Strategy.flood forwarder id hops).outbox.sent = forwarder.outbox.sent ++ packets ∧
      (packets.map (·.1)).Sublist (hops.map NextHop.face) := by
  induction hops generalizing forwarder with
  | nil => exact ⟨[], (List.append_nil _).symm, .refl _⟩
  | cons hop rest ih =>
    rw [Strategy.flood, List.foldl_cons, ← Strategy.flood]
    obtain ⟨packets, sent, listed⟩ := @ih (if forwarder.canForward id hop.face then
      forwarder.sendInterest id hop.face hop.targetHint false else forwarder)
    split at sent
    · rename_i usable
      rw [if_pos usable]
      rcases forwarder.sent_sendInterest id hop.face hop.targetHint false with
        ⟨same, _⟩ | ⟨_, _, request, _, _, _, _, _, first, _⟩
      · exact ⟨packets, by rw [sent, same], listed.cons hop.face⟩
      · refine ⟨(hop.face, .interest request) :: packets, ?_, listed.cons_cons hop.face⟩
        rw [sent, first, List.append_assoc]
        rfl
    · rename_i barred
      rw [if_neg barred]
      exact ⟨packets, sent, listed.cons hop.face⟩

theorem HandsOutBy.afterReceiveInterest (strategy : Strategy) (route : FibEntry) (id : PitId) :
    HandsOutBy route.nextHops forwarder (strategy.afterReceiveInterest forwarder route id) := by
  cases strategy with
  | multicast =>
    obtain ⟨packets, sent, listed⟩ := forwarder.sent_flood id route.nextHops
    have some : ((packets.filter (·.2.isInterest)).map (·.1)).Sublist
        (route.nextHops.map NextHop.face) := (List.filter_sublist.map _).trans listed
    simp only [Strategy.afterReceiveInterest]
    split
    · exact ⟨packets, sent, some⟩
    · exact ⟨packets, by rw [outbox_reject, sent], some⟩
  | bestRoute penalty =>
    simp only [Strategy.afterReceiveInterest]
    split
    · exact .of_same rfl
    · split
      · rename_i chosen
        exact .sendInterest (List.mem_of_find?_eq_some chosen) id _ _
      · exact .of_same outbox_reject

theorem HandsOutBy.sendData (data : Data) (face : FaceId) :
    HandsOutBy hops forwarder (forwarder.sendData data face) := by
  have sent := forwarder.sent_sendData data face
  split at sent
  · exact ⟨_, sent, List.nil_sublist _⟩
  · exact ⟨_, sent, List.nil_sublist _⟩

theorem fib_setUnsatisfyTimer (id : PitId) :
    (forwarder.setUnsatisfyTimer id).fib = forwarder.fib := by
  obtain ⟨_, _, same⟩ := forwarder.setUnsatisfyTimer_frame id
  rw [same]

theorem HandsOutBy.askOnward (id : PitId) (source : FaceId) (interest : Interest) :
    HandsOutBy (forwarder.fib.longestPrefixMatch interest.name).nextHops forwarder
      (forwarder.askOnward id source interest) := by
  have fib : ((forwarder.addInRecord id source interest).setUnsatisfyTimer id).fib =
      forwarder.fib := fib_setUnsatisfyTimer id
  unfold Forwarder.askOnward
  dsimp only
  rw [← fib]
  exact .since (.afterReceiveInterest _ _ id) outbox_setUnsatisfyTimer

theorem HandsOutBy.answerFromCache (id : PitId) (source : FaceId) (interest : Interest)
    (data : Data) :
    HandsOutBy hops forwarder (forwarder.answerFromCache id source interest data) := by
  unfold Forwarder.answerFromCache
  dsimp only
  exact .since (.sendData _ source) (outbox_setStragglerTimer _ id true _)

theorem HandsOutBy.handleRequest (matched : Matched forwarder.pit forwarder.timers)
    (source : FaceId) (interest : Interest) :
    HandsOutBy (forwarder.fib.longestPrefixMatch interest.name).nextHops forwarder
      (forwarder.handleRequest source interest) := by
  have outbox := forwarder.outbox_reopen interest.name
  obtain ⟨_, _, reopened⟩ := forwarder.reopen_frame interest.name
  have asked (change : Counters → Counters) (id : PitId) :
      HandsOutBy (forwarder.fib.longestPrefixMatch interest.name).nextHops
        ((forwarder.reopen interest.name).count change)
        (((forwarder.reopen interest.name).count change).askOnward id source interest) := by
    have handed :=
      @HandsOutBy.askOnward ((forwarder.reopen interest.name).count change) id source interest
    have fib : ((forwarder.reopen interest.name).count change).fib = forwarder.fib := by
      rw [reopened]
      rfl
    rwa [fib] at handed
  rcases handleRequest_cases matched source interest with ⟨misses, same⟩ | ⟨data, _, same⟩
  · rw [same]
    exact (asked _ _).since outbox
  · rw [same]
    exact (HandsOutBy.answerFromCache _ source interest data).since outbox

/-- An Interest that comes in makes some go out by the next hops of its name, and only by these. -/
theorem HandsOutBy.receiveInterest (matched : Matched forwarder.pit forwarder.timers)
    (source : FaceId) (interest : Interest) :
    HandsOutBy (forwarder.fib.longestPrefixMatch interest.name).nextHops forwarder
      (forwarder.receiveInterest source interest) := by
  rcases forwarder.receiveInterest_cases source interest with ⟨change, same⟩ | ⟨kept, judged | judged⟩
  · rw [same]
    exact .of_same rfl
  · rw [receiveInterest_duplicate judged]
    exact .of_same outbox_setUnsatisfyTimer
  · have named : interest.name = kept.name := by
      rw [(judge_letIn (Or.inr judged)).1]
      rfl
    have received : Matched forwarder.received.pit forwarder.received.timers := matched
    rw [receiveInterest_request judged, named]
    exact (HandsOutBy.handleRequest received source kept).since rfl

/-- An Interest that comes in makes at most one go out of each face. -/
theorem HandsOutOnce.receiveInterest (matched : Matched forwarder.pit forwarder.timers)
    (distinct : forwarder.fib.Distinct) (source : FaceId) (interest : Interest) :
    HandsOutOnce forwarder (forwarder.receiveInterest source interest) :=
  (HandsOutBy.receiveInterest matched source interest).once (distinct.longestPrefixMatch _)

/-- What goes out for an Interest has its name, and goes by a next hop of that name. -/
theorem Sound.hop_of_sends (sound : forwarder.Sound) {source face : FaceId} {interest request : Interest}
    (sent : (face, .interest request) ∈ forwarder.sends (.receiveInterest source interest)) :
    request.name = interest.name ∧
      ∃ hop ∈ (forwarder.fib.longestPrefixMatch interest.name).nextHops, hop.face = face := by
  obtain ⟨_, emitted⟩ := emitted_receiveInterest sound source interest
  obtain ⟨named, _⟩ := emitted.noted (mem_sends sent emitted.sent)
  rw [sound.matched.filed.insert_name] at named
  obtain ⟨packets, handed, listed⟩ := HandsOutBy.receiveInterest sound.matched source interest
  have here : face ∈ (packets.filter (·.2.isInterest)).map (·.1) :=
    List.mem_map.mpr ⟨_, List.mem_filter.mpr ⟨mem_sends sent handed, rfl⟩, rfl⟩
  exact ⟨named, List.mem_map.mp (listed.subset here)⟩

end Forwarder

end NamedData
