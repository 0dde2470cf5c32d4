import Mathlib.Data.List.MinMax
import NamedData.Proofs.LongestPrefix
import NamedData.Proofs.RouteOrder

namespace NamedData

/-- What is told of a route besides its prefix and its face. -/
structure Way where
  cost : Cost
  targetHint : Option String
  latency : Option Duration
  deriving DecidableEq

def NextHop.way (hop : NextHop) : Way := ⟨hop.cost, hop.targetHint, hop.latency⟩

theorem NextHop.eq_of_way {a b : NextHop} (face : a.face = b.face) (way : a.way = b.way) : a = b := by
  cases a
  cases b
  cases face
  cases way
  rfl

/-- A route is known by its prefix and its face. -/
abbrev RouteKey := Name × FaceId

/-- Routes compare by their prefixes, and those of one prefix by their faces. -/
def RouteKey.order : RouteKey → RouteKey → Ordering :=
  compareLex (compareOn fun key => key.1) (compareOn fun key => key.2.number)

instance : Std.TransCmp RouteKey.order :=
  inferInstanceAs (Std.TransCmp (compareLex (compareOn fun key : RouteKey => key.1)
    (compareOn fun key : RouteKey => key.2.number)))

instance : Std.LawfulEqCmp RouteKey.order where
  eq_of_compare {a b} same := by
    obtain ⟨names, numbers⟩ := Ordering.then_eq_eq.1 same
    refine Prod.ext (Std.LawfulEqCmp.eq_of_compare names) ?_
    exact congrArg FaceId.mk (Nat.compare_eq_eq.mp numbers)

/-- The routes as a plain map from prefix and face. -/
abbrev RouteMap := Std.ExtTreeMap RouteKey Way RouteKey.order

namespace RouteMap

variable {map : RouteMap} {name under : Name} {face : FaceId} {wanted : FaceId → Bool}

theorem getElem?_insert (map : RouteMap) (key other : RouteKey) (way : Way) :
    (map.insert key way)[other]? = if key = other then some way else map[other]? := by
  simp only [Std.ExtTreeMap.getElem?_insert, Std.LawfulEqCmp.compare_eq_iff_eq]

theorem getElem?_erase (map : RouteMap) (key other : RouteKey) :
    (map.erase key)[other]? = if key = other then none else map[other]? := by
  simp only [Std.ExtTreeMap.getElem?_erase, Std.LawfulEqCmp.compare_eq_iff_eq]

theorem getElem?_modify (map : RouteMap) (key other : RouteKey) (change : Way → Way) :
    (map.modify key change)[other]? = if key = other then map[key]?.map change else map[other]? := by
  simp only [Std.ExtTreeMap.getElem?_modify, Std.LawfulEqCmp.compare_eq_iff_eq]

/-- The longest prefix of a name with a route through a face that is wanted. -/
def closest? (map : RouteMap) (name : Name) (wanted : FaceId → Bool) : Option Name :=
  ((map.keys.filter fun key => key.1.isPrefixOf name && wanted key.2).map (·.1)).argmax Name.size

/-- A prefix has a route through a face that is wanted. -/
def Leads (map : RouteMap) (wanted : FaceId → Bool) (under : Name) : Prop :=
  ∃ face, wanted face = true ∧ map[(under, face)]?.isSome = true

theorem mem_candidates :
    under ∈ (map.keys.filter fun key => key.1.isPrefixOf name && wanted key.2).map (·.1) ↔
      under.isPrefixOf name = true ∧ map.Leads wanted under := by
  rw [List.mem_map]
  constructor
  · rintro ⟨key, listed, rfl⟩
    obtain ⟨member, passes⟩ := List.mem_filter.mp listed
    obtain ⟨isPrefix, isWanted⟩ := Bool.and_eq_true_iff.mp passes
    refine ⟨isPrefix, key.2, isWanted, ?_⟩
    exact Std.ExtTreeMap.isSome_getElem?_iff_mem.mpr (Std.ExtTreeMap.mem_keys.mp member)
  · rintro ⟨isPrefix, face, isWanted, found⟩
    refine ⟨(under, face), List.mem_filter.mpr ⟨?_, Bool.and_eq_true_iff.mpr ⟨isPrefix, isWanted⟩⟩, rfl⟩
    exact Std.ExtTreeMap.mem_keys.mpr (Std.ExtTreeMap.isSome_getElem?_iff_mem.mp found)

theorem closest?_eq_some_iff :
    map.closest? name wanted = some under ↔ name.Longest (map.Leads wanted) under := by
  have longest {under : Name} (found : map.closest? name wanted = some under) :
      name.Longest (map.Leads wanted) under := by
    obtain ⟨isPrefix, leads⟩ := mem_candidates.mp (List.argmax_mem found)
    exact ⟨isPrefix, leads, fun other isPrefix' leads' =>
      List.le_of_mem_argmax (mem_candidates.mpr ⟨isPrefix', leads'⟩) found⟩
  refine ⟨longest, fun isLongest => ?_⟩
  cases found : map.closest? name wanted with
  | none =>
    have nothing := List.argmax_eq_none.mp found
    have member := mem_candidates.mpr ⟨isLongest.isPrefix, isLongest.here⟩
    rw [nothing] at member
    cases member
  | some other => rw [isLongest.unique (longest found)]

theorem closest?_eq_none_iff : map.closest? name wanted = none ↔
    ∀ under : Name, under.isPrefixOf name = true → ¬ map.Leads wanted under := by
  rw [closest?, List.argmax_eq_none, List.eq_nil_iff_forall_not_mem]
  exact forall_congr' fun under => by rw [mem_candidates, not_and]

end RouteMap

namespace Fib

variable {fib : Fib} {map : RouteMap} {name under : Name} {face : FaceId} {hop : NextHop}

/-- What is asked of the routes. -/
inductive Call where
  | addNextHop (name : Name) (hop : NextHop)
  | removeNextHop (name : Name) (face : FaceId)
  | removeFace (face : FaceId)
  | bumpCost (name : Name) (face : FaceId) (delta : Cost)

/-- What is answered: nothing, whether there was such a route, or how many there were. -/
inductive Answer where
  | done
  | found (any : Bool)
  | removed (count : Nat)
  deriving DecidableEq

def call (fib : Fib) : Call → Answer × Fib
  | .addNextHop name hop => (.done, fib.addNextHop name hop)
  | .removeNextHop name face => (.found (fib.hasNextHop name face), fib.removeNextHop name face)
  | .removeFace face => (.removed (fib.faceCount face), fib.removeFace face)
  | .bumpCost name face delta =>
    (.found (fib.routeThrough? name face).isSome, fib.bumpCost name face delta)

def answers (fib : Fib) : List Call → List Answer
  | [] => []
  | first :: rest => (fib.call first).1 :: (fib.call first).2.answers rest

def afterCalls (fib : Fib) (calls : List Call) : Fib :=
  calls.foldl (fun fib call => (fib.call call).2) fib

end Fib

namespace RouteMap

/-- The same calls, on a plain map. -/
def call (map : RouteMap) : Fib.Call → Fib.Answer × RouteMap
  | .addNextHop name hop => (.done, map.insert (name, hop.face) hop.way)
  | .removeNextHop name face => (.found (map.contains (name, face)), map.erase (name, face))
  | .removeFace face =>
    (.removed (map.keys.countP (·.2 == face)), map.filter fun key _ => key.2 != face)
  | .bumpCost name face delta =>
    match map.closest? name (· == face) with
    | some under =>
      (.found true, map.modify (under, face) fun way => { way with cost := way.cost.raise delta })
    | none => (.found false, map)

def answers (map : RouteMap) : List Fib.Call → List Fib.Answer
  | [] => []
  | first :: rest => (map.call first).1 :: answers (map.call first).2 rest

def afterCalls (map : RouteMap) (calls : List Fib.Call) : RouteMap :=
  calls.foldl (fun map call => (RouteMap.call map call).2) map

end RouteMap

namespace Fib

variable {fib : Fib} {map : RouteMap} {name under : Name} {face : FaceId} {hop : NextHop}

/-- The routes are those of a plain map. -/
def Holds (fib : Fib) (map : RouteMap) : Prop :=
  ∀ (under : Name) (hop : NextHop),
    hop ∈ fib.hopsUnder under ↔ map[(under, hop.face)]? = some hop.way

theorem holds_empty : Fib.empty.Holds ∅ := by
  intro under hop
  simp [hopsUnder, Fib.empty]

theorem Holds.addNextHop (holds : fib.Holds map) (name : Name) (hop : NextHop) :
    (fib.addNextHop name hop).Holds (map.insert (name, hop.face) hop.way) := by
  intro under other
  rw [hopsUnder_addNextHop, RouteMap.getElem?_insert]
  by_cases here : name = under
  · subst here
    rw [if_pos rfl, mem_place, mem_without, holds]
    by_cases same : hop.face = other.face
    · rw [if_pos (by rw [same]), Option.some.injEq]
      constructor
      · rintro (rfl | ⟨_, different⟩)
        · rfl
        · exact absurd same.symm different
      · exact fun way => Or.inl (NextHop.eq_of_way same.symm way.symm)
    · rw [if_neg fun key => same (Prod.mk.inj key).2]
      constructor
      · rintro (rfl | ⟨found, _⟩)
        · exact absurd rfl same
        · exact found
      · exact fun found => Or.inr ⟨found, Ne.symm same⟩
  · rw [if_neg here, if_neg fun key => here (Prod.mk.inj key).1, holds]

theorem Holds.removeNextHop (holds : fib.Holds map) (name : Name) (face : FaceId) :
    (fib.removeNextHop name face).Holds (map.erase (name, face)) := by
  intro under other
  rw [hopsUnder_removeNextHop, RouteMap.getElem?_erase]
  by_cases here : name = under
  · subst here
    rw [if_pos rfl, mem_without, holds]
    by_cases same : face = other.face
    · rw [if_pos (by rw [same])]
      constructor
      · exact fun ⟨_, different⟩ => absurd same.symm different
      · exact fun impossible => by cases impossible
    · rw [if_neg fun key => same (Prod.mk.inj key).2]
      exact and_iff_left (Ne.symm same)
  · rw [if_neg here, if_neg fun key => here (Prod.mk.inj key).1, holds]

theorem Holds.removeFace (holds : fib.Holds map) (face : FaceId) :
    (fib.removeFace face).Holds (map.filter fun key _ => key.2 != face) := by
  intro under other
  rw [hopsUnder_removeFace, mem_without, holds, Std.ExtTreeMap.getElem?_filter',
    Option.filter_eq_some_iff, bne_iff_ne]

theorem leads_iff : map.Leads (· == face) under ↔ map[(under, face)]?.isSome = true := by
  constructor
  · rintro ⟨other, same, found⟩
    rwa [eq_of_beq same] at found
  · exact fun found => ⟨face, beq_self_eq_true face, found⟩

/-- The hop through a face that is listed under a prefix is the route of the map. -/
theorem Holds.find?_eq_some_iff (holds : fib.Holds map) :
    (fib.hopsUnder under).find? (·.face == face) = some hop ↔
      hop.face = face ∧ map[(under, face)]? = some hop.way := by
  have listed {hop : NextHop} (found : (fib.hopsUnder under).find? (·.face == face) = some hop) :
      hop.face = face ∧ map[(under, face)]? = some hop.way := by
    have here := List.find?_some found
    have same : hop.face = face := eq_of_beq here
    have route := (holds under hop).mp (List.mem_of_find?_eq_some found)
    rw [same] at route
    exact ⟨same, route⟩
  refine ⟨listed, fun ⟨same, route⟩ => ?_⟩
  cases found : (fib.hopsUnder under).find? (·.face == face) with
  | none =>
    subst same
    have nowhere := List.find?_eq_none.mp found hop ((holds under hop).mpr route)
    exact absurd (beq_self_eq_true hop.face) nowhere
  | some other =>
    obtain ⟨same', route'⟩ := listed found
    have ways : other.way = hop.way := Option.some.inj (route'.symm.trans route)
    rw [NextHop.eq_of_way (same'.trans same.symm) ways]

theorem Holds.isSome_find? (holds : fib.Holds map) :
    ((fib.hopsUnder under).find? (·.face == face)).isSome = map[(under, face)]?.isSome := by
  cases found : map[(under, face)]? with
  | none =>
    cases listed : (fib.hopsUnder under).find? (·.face == face) with
    | none => rfl
    | some hop =>
      have route := (holds.find?_eq_some_iff.mp listed).2
      rw [found] at route
      cases route
  | some way =>
    let hop : NextHop := ⟨face, way.cost, way.targetHint, way.latency⟩
    have listed : (fib.hopsUnder under).find? (·.face == face) = some hop :=
      holds.find?_eq_some_iff.mpr ⟨rfl, found⟩
    rw [listed]
    rfl

theorem Holds.hasNextHop (holds : fib.Holds map) (name : Name) (face : FaceId) :
    fib.hasNextHop name face = map.contains (name, face) := by
  rw [Fib.hasNextHop, ← List.isSome_find?, ← Std.ExtTreeMap.isSome_getElem?_eq_contains]
  exact holds.isSome_find?

/-- The way through a face that is closest to a name is that of the longest prefix in the map. -/
theorem Holds.routeThrough?_eq_some_iff (holds : fib.Holds map) :
    fib.routeThrough? name face = some (under, hop) ↔
      map.closest? name (· == face) = some under ∧
        hop.face = face ∧ map[(under, face)]? = some hop.way := by
  have same : (fun under => (((fib.hopsUnder under).find? (·.face == face)).map
      (under, ·)).isSome = true) = map.Leads (· == face) := by
    funext under
    rw [Option.isSome_map, holds.isSome_find?, leads_iff]
  have search : fib.routeThrough? name face = name.prefixes.findSome? fun under =>
      ((fib.hopsUnder under).find? (·.face == face)).map (under, ·) := rfl
  rw [search, Name.findSome?_prefixes_eq_some_iff, same, ← holds.find?_eq_some_iff]
  simp only [RouteMap.closest?_eq_some_iff, Option.map_eq_some_iff, Prod.mk.injEq]
  constructor
  · rintro ⟨_, longest, _, here, rfl, rfl⟩
    exact ⟨longest, here⟩
  · rintro ⟨longest, here⟩
    exact ⟨under, longest, hop, here, rfl, rfl⟩

theorem Holds.routeThrough?_eq_none (holds : fib.Holds map)
    (nowhere : map.closest? name (· == face) = none) : fib.routeThrough? name face = none := by
  cases found : fib.routeThrough? name face with
  | none => rfl
  | some route =>
    have closest := (holds.routeThrough?_eq_some_iff.mp found).1
    rw [nowhere] at closest
    cases closest

/-- Where the map has a closest route, so have the hops. -/
theorem Holds.exists_routeThrough? (holds : fib.Holds map)
    (closest : map.closest? name (· == face) = some under) :
    ∃ hop, fib.routeThrough? name face = some (under, hop) ∧ hop.face = face ∧
      map[(under, face)]? = some hop.way := by
  obtain ⟨way, route⟩ := Option.isSome_iff_exists.mp
    (leads_iff.mp (RouteMap.closest?_eq_some_iff.mp closest).here)
  let hop : NextHop := ⟨face, way.cost, way.targetHint, way.latency⟩
  exact ⟨hop, holds.routeThrough?_eq_some_iff.mpr ⟨closest, rfl, route⟩, rfl, route⟩

theorem Holds.congr {map' : RouteMap} (holds : fib.Holds map)
    (same : ∀ key : RouteKey, map'[key]? = map[key]?) : fib.Holds map' := fun under hop => by
  rw [same, holds]

theorem Holds.bumpCost (holds : fib.Holds map) (delta : Cost)
    (closest : map.closest? name (· == face) = some under) :
    (fib.bumpCost name face delta).Holds
      (map.modify (under, face) fun way => { way with cost := way.cost.raise delta }) := by
  obtain ⟨hop, found, rfl, route⟩ := holds.exists_routeThrough? closest
  rw [Fib.bumpCost, found]
  refine (holds.addNextHop under { hop with cost := hop.cost.raise delta }).congr fun key => ?_
  rw [RouteMap.getElem?_insert, RouteMap.getElem?_modify]
  by_cases here : (under, hop.face) = key
  · subst here
    rw [if_pos rfl, if_pos rfl, route]
    rfl
  · rw [if_neg here, if_neg here]

/-- No prefix has two hops through one face, since they would be one route of the map. -/
theorem Holds.distinct (holds : fib.Holds map) (tidy : fib.Tidy) : fib.Distinct := by
  intro under hops found
  obtain ⟨_, ascending⟩ := tidy under hops found
  refine List.pairwise_map.mpr (ascending.imp_of_mem fun {a b} hasA hasB before same => ?_)
  have here : fib.hopsUnder under = hops := by rw [hopsUnder, found, Option.getD_some]
  have routeA := (holds under a).mp (by rwa [here])
  have routeB := (holds under b).mp (by rwa [here])
  rw [same, routeB] at routeA
  have one : a = b := NextHop.eq_of_way same (Option.some.inj routeA).symm
  rw [one] at before
  exact NextHop.Before.irrefl b before

theorem countP_of_nodup {hops : List NextHop} (face : FaceId)
    (once : (hops.map NextHop.face).Nodup) :
    hops.countP (·.face == face) = if hops.any (·.face == face) then 1 else 0 := by
  have counted : hops.countP (·.face == face) = (hops.map NextHop.face).count face := by
    rw [List.count_eq_countP, List.countP_map]
    rfl
  rw [counted, once.count]
  refine if_congr ?_ rfl rfl
  rw [List.mem_map, List.any_eq_true]
  simp only [beq_iff_eq]

theorem Distinct.foldl_countP {rows : List (Name × List NextHop)} (face : FaceId)
    (once : ∀ row ∈ rows, (row.2.map NextHop.face).Nodup) (count : Nat) :
    (rows.map (·.2)).foldl (fun count hops => count + hops.countP (·.face == face)) count =
      count + rows.countP fun row => row.2.any (·.face == face) := by
  induction rows generalizing count with
  | nil => rfl
  | cons row rest ih =>
    obtain ⟨first, once'⟩ := List.forall_mem_cons.mp once
    rw [List.map_cons, List.foldl_cons, ih once', countP_of_nodup face first, List.countP_cons]
    omega

theorem mem_rows_through :
    under ∈ (fib.routes.toList.filter fun row => row.2.any (·.face == face)).map (·.1) ↔
      fib.hasNextHop under face = true := by
  rw [List.mem_map, Fib.hasNextHop]
  constructor
  · rintro ⟨row, member, rfl⟩
    obtain ⟨listed, through⟩ := List.mem_filter.mp member
    rw [Std.ExtTreeMap.mem_toList_iff_getElem?_eq_some.mp listed]
    exact through
  · intro through
    cases found : fib.routes[under]? with
    | none =>
      rw [found] at through
      cases through
    | some hops =>
      rw [found] at through
      have listed := Std.ExtTreeMap.mem_toList_iff_getElem?_eq_some.mpr found
      exact ⟨(under, hops), List.mem_filter.mpr ⟨listed, through⟩, rfl⟩

theorem mem_keys_through :
    under ∈ (map.keys.filter (·.2 == face)).map (·.1) ↔ map.contains (under, face) = true := by
  rw [List.mem_map, Std.ExtTreeMap.contains_iff_mem, ← Std.ExtTreeMap.mem_keys]
  constructor
  · rintro ⟨⟨_, other⟩, member, rfl⟩
    obtain ⟨listed, through⟩ := List.mem_filter.mp member
    have same : other = face := eq_of_beq through
    rwa [← same]
  · exact fun listed =>
      ⟨(under, face), List.mem_filter.mpr ⟨listed, beq_self_eq_true face⟩, rfl⟩

/-- The prefixes with a hop through a face are those with a route of the map through it. -/
theorem Holds.perm_under (holds : fib.Holds map) (face : FaceId) :
    ((fib.routes.toList.filter fun row => row.2.any (·.face == face)).map (·.1)).Perm
      ((map.keys.filter (·.2 == face)).map (·.1)) := by
  have names : (fib.routes.toList.map (·.1)).Nodup := by
    rw [Std.ExtTreeMap.map_fst_toList_eq_keys]
    exact Std.ExtTreeMap.nodup_keys
  have keys : ((map.keys.filter (·.2 == face)).map (·.1)).Nodup := by
    refine List.Nodup.map_on (fun a hasA b hasB same => Prod.ext same ?_)
      (Std.ExtTreeMap.nodup_keys.filter _)
    rw [eq_of_beq (List.mem_filter.mp hasA).2, eq_of_beq (List.mem_filter.mp hasB).2]
  refine (List.perm_ext_iff_of_nodup (names.sublist (List.filter_sublist.map _)) keys).mpr
    fun under => ?_
  rw [mem_rows_through, mem_keys_through, holds.hasNextHop]

theorem Holds.faceCount (holds : fib.Holds map) (tidy : fib.Tidy) (face : FaceId) :
    fib.faceCount face = map.keys.countP (·.2 == face) := by
  have once : ∀ row ∈ fib.routes.toList, (row.2.map NextHop.face).Nodup := fun row listed =>
    holds.distinct tidy row.1 row.2 (Std.ExtTreeMap.mem_toList_iff_getElem?_eq_some.mp listed)
  have same := (holds.perm_under face).length_eq
  rw [List.length_map, List.length_map, ← List.countP_eq_length_filter,
    ← List.countP_eq_length_filter] at same
  rw [Fib.faceCount, NameTable.values_eq_map_toList, Distinct.foldl_countP face once, Nat.zero_add,
    same]

/-- A call is answered alike, and the routes stay those of the map. -/
theorem Holds.call (holds : fib.Holds map) (tidy : fib.Tidy) (asked : Call) :
    (fib.call asked).1 = (map.call asked).1 ∧ (fib.call asked).2.Holds (map.call asked).2 ∧
      (fib.call asked).2.Tidy := by
  cases asked with
  | addNextHop name hop => exact ⟨rfl, holds.addNextHop name hop, tidy.addNextHop name hop⟩
  | removeNextHop name face =>
    exact ⟨congrArg Answer.found (holds.hasNextHop name face), holds.removeNextHop name face,
      tidy.removeNextHop name face⟩
  | removeFace face =>
    exact ⟨congrArg Answer.removed (holds.faceCount tidy face), holds.removeFace face,
      tidy.removeFace face⟩
  | bumpCost name face delta =>
    simp only [Fib.call, RouteMap.call]
    cases closest : map.closest? name (· == face) with
    | none =>
      have nowhere := holds.routeThrough?_eq_none closest
      refine ⟨by rw [nowhere]; rfl, ?_, tidy.bumpCost name face delta⟩
      rw [Fib.bumpCost, nowhere]
      exact holds
    | some under =>
      obtain ⟨hop, found, _⟩ := holds.exists_routeThrough? closest
      exact ⟨by rw [found]; rfl, holds.bumpCost delta closest, tidy.bumpCost name face delta⟩

/-- A prefix is listed if the map has a route from it. -/
theorem Holds.isSome_iff (holds : fib.Holds map) (tidy : fib.Tidy) :
    fib.routes[under]?.isSome = true ↔ map.Leads (fun _ => true) under := by
  constructor
  · intro listed
    obtain ⟨hops, found⟩ := Option.isSome_iff_exists.mp listed
    obtain ⟨hop, member⟩ := List.exists_mem_of_ne_nil hops (tidy under hops found).1
    have here : hop ∈ fib.hopsUnder under := by rwa [hopsUnder, found]
    exact ⟨hop.face, rfl, by rw [(holds under hop).mp here]; rfl⟩
  · rintro ⟨face, _, leads⟩
    rw [← holds.isSome_find?, hopsUnder] at leads
    cases found : fib.routes[under]? with
    | none =>
      rw [found] at leads
      cases leads
    | some hops => rfl

/-- The entry that is found is that of the longest prefix with a route in the map. -/
theorem Holds.longestPrefixMatch_eq (holds : fib.Holds map) (tidy : fib.Tidy) (name : Name) :
    fib.longestPrefixMatch name = match map.closest? name fun _ => true with
      | some under => ⟨under, fib.hopsUnder under⟩
      | none => ⟨Name.root, []⟩ := by
  have leads : (fun under => fib.routes[under]?.isSome = true) = map.Leads fun _ => true := by
    funext under
    exact propext (holds.isSome_iff tidy)
  rcases fib.longestPrefixMatch_cases name with ⟨under, hops, longest, here, same⟩ | ⟨nothing, same⟩
  · rw [leads] at longest
    rw [same, RouteMap.closest?_eq_some_iff.mpr longest]
    simp only [hopsUnder, here, Option.getD_some]
  · have nowhere : map.closest? name (fun _ => true) = none := by
      refine RouteMap.closest?_eq_none_iff.mpr fun under isPrefix leads => ?_
      have listed := (holds.isSome_iff tidy).mpr leads
      rw [nothing under isPrefix] at listed
      cases listed
    rw [same, nowhere]

theorem Holds.run (holds : fib.Holds map) (tidy : fib.Tidy) (calls : List Call) :
    fib.answers calls = map.answers calls ∧ (fib.afterCalls calls).Holds (map.afterCalls calls) ∧
      (fib.afterCalls calls).Tidy := by
  induction calls generalizing fib map with
  | nil => exact ⟨rfl, holds, tidy⟩
  | cons first rest ih =>
    obtain ⟨same, holds', tidy'⟩ := holds.call tidy first
    obtain ⟨same', after⟩ := ih holds' tidy'
    refine ⟨?_, after⟩
    rw [Fib.answers, RouteMap.answers, same, same']

/-- Whatever is asked of the routes, they answer as a plain map from prefix and face would, and
hold what it holds: every prefix that is listed has some hop, the best one first, and a name
finds the hops of its longest prefix with a route in the map. -/
theorem routes_refine_the_map (calls : List Call) :
    Fib.empty.answers calls = RouteMap.answers ∅ calls ∧
      (Fib.empty.afterCalls calls).Holds (RouteMap.afterCalls ∅ calls) ∧
      (Fib.empty.afterCalls calls).Tidy ∧
      ∀ name : Name, (Fib.empty.afterCalls calls).longestPrefixMatch name =
        match (RouteMap.afterCalls ∅ calls).closest? name fun _ => true with
        | some under => ⟨under, (Fib.empty.afterCalls calls).hopsUnder under⟩
        | none => ⟨Name.root, []⟩ := by
  obtain ⟨same, holds, tidy⟩ := holds_empty.run tidy_empty calls
  exact ⟨same, holds, tidy, holds.longestPrefixMatch_eq tidy⟩

/-- A way that gets dearer falls behind the others of its prefix. -/
example : ((Fib.empty.afterCalls [.addNextHop ⟨[[97]]⟩ ⟨⟨300⟩, 1, none, none⟩,
    .addNextHop ⟨[[97]]⟩ ⟨⟨301⟩, 2, none, none⟩, .bumpCost ⟨[[97], [98]]⟩ ⟨300⟩ 5]).longestPrefixMatch
      ⟨[[97]]⟩).nextHops.map (fun hop => (hop.face, hop.cost)) = [(⟨301⟩, 2), (⟨300⟩, 6)] := by
  decide

end Fib

end NamedData
