import NamedData.Proofs.HostScope
import NamedData.Proofs.NextHops

namespace NamedData

namespace Fib

/-- Something holds of every way and the prefix that it is for. -/
def Every (fib : Fib) (Fine : Name → FaceId → Prop) : Prop :=
  ∀ (under : Name) (hops : List NextHop), fib.routes[under]? = some hops →
    ∀ hop ∈ hops, Fine under hop.face

variable {fib : Fib} {Fine Fair : Name → FaceId → Prop} {faces : FaceTable}

theorem every_empty : Fib.empty.Every Fine := by
  intro under hops found
  simp [Fib.empty] at found

theorem Every.imp (every : fib.Every Fine) (more : ∀ under face, Fine under face → Fair under face) :
    fib.Every Fair := fun under hops found hop member => more _ _ (every under hops found hop member)

theorem Every.hops (every : fib.Every Fine) {under : Name} {hop : NextHop}
    (member : hop ∈ fib.routes[under]?.getD []) : Fine under hop.face := by
  cases found : fib.routes[under]? with
  | none =>
    rw [found] at member
    cases member
  | some hops =>
    rw [found] at member
    exact every _ _ found hop member

theorem Every.addNextHop (every : fib.Every Fine) {name : Name} {hop : NextHop}
    (fine : Fine name hop.face) : (fib.addNextHop name hop).Every Fine := by
  intro under hops found other member
  rw [Fib.addNextHop, NameTable.getElem?_insert] at found
  split at found
  · rename_i same
    cases found
    subst same
    rcases List.mem_cons.mp ((perm_place _ _).mem_iff.mp member) with new | old
    · rw [new]
      exact fine
    · exact every.hops (List.mem_filter.mp old).1
  · exact every _ _ found other member

/-- A way that gets dearer is still one for the same prefix. -/
theorem Every.bumpCost (every : fib.Every Fine) (name : Name) (face : FaceId) (delta : Cost) :
    (fib.bumpCost name face delta).Every Fine := by
  unfold Fib.bumpCost
  split
  · rename_i under hop found
    obtain ⟨shorter, _, listed⟩ := List.exists_of_findSome?_eq_some found
    obtain ⟨_, first, same⟩ := Option.map_eq_some_iff.mp listed
    cases same
    have fine : Fine under hop.face := every.hops (List.mem_of_find?_eq_some first)
    exact every.addNextHop fine
  · exact every

/-- A name is led on by the ways of one of its prefixes. -/
theorem Every.longestPrefixMatch (every : fib.Every Fine) {name : Name} {hop : NextHop}
    (member : hop ∈ (fib.longestPrefixMatch name).nextHops) :
    ∃ under : Name, under.isPrefixOf name = true ∧ Fine under hop.face := by
  rcases fib.longestPrefixMatch_cases name with ⟨under, hops, longest, here, same⟩ | ⟨_, same⟩
  · rw [same] at member
    exact ⟨under, longest.isPrefix, every under hops here hop member⟩
  · rw [same] at member
    cases member

/-- Every way leads through a face that is there. -/
def Within (fib : Fib) (faces : FaceTable) : Prop :=
  ∀ (under : Name) (hops : List NextHop), fib.routes[under]? = some hops →
    ∀ hop ∈ hops, faces.contains hop.face = true

theorem within_iff : fib.Within faces ↔ fib.Every fun _ face => faces.contains face = true := Iff.rfl

theorem within_empty : Fib.empty.Within faces := within_iff.mpr every_empty

theorem Within.of_more (within : fib.Within faces) {more : FaceTable}
    (kept : ∀ {face : FaceId}, faces.contains face = true → more.contains face = true) :
    fib.Within more := (within_iff.mp within).imp fun _ _ => kept

theorem Within.addNextHop (within : fib.Within faces) (name : Name) {hop : NextHop}
    (present : faces.contains hop.face = true) : (fib.addNextHop name hop).Within faces :=
  (within_iff.mp within).addNextHop present

theorem Within.bumpCost (within : fib.Within faces) (name : Name) (face : FaceId) (delta : Cost) :
    (fib.bumpCost name face delta).Within faces := (within_iff.mp within).bumpCost name face delta

theorem Within.longestPrefixMatch (within : fib.Within faces) {name : Name} {hop : NextHop}
    (member : hop ∈ (fib.longestPrefixMatch name).nextHops) : faces.contains hop.face = true := by
  obtain ⟨_, _, present⟩ := (within_iff.mp within).longestPrefixMatch member
  exact present

end Fib

theorem FaceTable.contains_add (table : FaceTable) (added : Face) :
    (table.add added).2.contains (table.add added).1 = true :=
  FaceTable.contains_iff.mpr (FaceTable.mem_ids_place.mpr (Or.inl rfl))

theorem FaceTable.contains_add_of_contains {table : FaceTable} {face : FaceId}
    (present : table.contains face = true) (added : Face) :
    (table.add added).2.contains face = true :=
  FaceTable.contains_iff.mpr
    (FaceTable.mem_ids_place.mpr (Or.inr (FaceTable.contains_iff.mp present)))

namespace Forwarder

variable {action : Action} {before after forwarder : Forwarder}

/-- Every next hop is a face that is there. -/
def Routed (forwarder : Forwarder) : Prop := forwarder.fib.Within forwarder.faces

variable {Fine : Name → FaceId → Prop}

theorem Step.every (step : Step action before after) (every : before.fib.Every Fine) :
    after.fib.Every Fine := by
  cases step with
  | raises name face penalty => exact every.bumpCost name face penalty
  | asks =>
    rw [emitInterest_eq]
    exact every
  | answers =>
    rw [sendData_eq]
    exact every
  | notes =>
    rw [noteDeadNonces_eq]
    exact every
  | _ => exact every

theorem Steps.every (steps : Steps action before after) (every : before.fib.Every Fine) :
    after.fib.Every Fine := by
  induction steps with
  | refl => exact every
  | tail _ step ih => exact step.every ih

theorem Steps.routed (steps : Steps action before after) (routed : before.Routed) :
    after.Routed := by
  rw [Routed, steps.fixed.1]
  exact steps.every (Fib.within_iff.mp routed)

end Forwarder

end NamedData
