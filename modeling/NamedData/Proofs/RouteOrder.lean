import NamedData.Proofs.NextHops

namespace NamedData

theorem FaceId.compare_def (a b : FaceId) : compare a b = compare a.number b.number := by
  show instOrdFaceId.ord a b = _
  cases order : compare a.number b.number <;> simp [instOrdFaceId.ord, order]

namespace NextHop

variable {a b c : NextHop}

/-- The latency that a hop is taken to have: the longest when it is unknown. -/
def slowness (hop : NextHop) : Duration := hop.latency.getD Duration.max

/-- A hop is better than another: it costs less, or as much and is quicker, or is as quick
too and its face has the smaller number. -/
def Before (a b : NextHop) : Prop :=
  a.cost < b.cost ∨ a.cost = b.cost ∧
    (a.slowness < b.slowness ∨ a.slowness = b.slowness ∧ a.face.number < b.face.number)

theorem order_eq_lt : order a b = .lt ↔ a.Before b := by
  have quicker : compare a.slowness b.slowness = compare a.slowness.nanos b.slowness.nanos := rfl
  show ((compare a.cost b.cost).then ((compare a.slowness b.slowness).then
    (compare a.face b.face))) = .lt ↔ _
  rw [Ordering.then_eq_lt, Ordering.then_eq_lt, FaceId.compare_def, quicker, Std.compare_eq_lt,
    Std.compare_eq_iff_eq, Nat.compare_eq_lt, Nat.compare_eq_lt, Nat.compare_eq_eq, Before,
    Duration.lt_def, Duration.ext_iff]

theorem order_swap (a b : NextHop) : (order a b).swap = order b a := by
  have quicker (a b : Duration) : compare a b = compare a.nanos b.nanos := rfl
  rw [order, order, Ordering.swap_then, Ordering.swap_then, FaceId.compare_def, FaceId.compare_def,
    quicker, quicker, ← Std.OrientedOrd.eq_swap, ← Std.OrientedOrd.eq_swap,
    ← Std.OrientedOrd.eq_swap]

theorem order_eq_gt : order a b = .gt ↔ b.Before a := by
  rw [← order_eq_lt, ← order_swap a b]
  cases order a b <;> decide

theorem order_eq_eq (same : order a b = .eq) : a.face = b.face := by
  rw [order, Ordering.then_eq_eq, Ordering.then_eq_eq, FaceId.compare_def, Nat.compare_eq_eq] at same
  exact congrArg FaceId.mk same.2.2

/-- Of two hops through different faces one is better. -/
theorem before_of_not_gt (different : a.face ≠ b.face) (early : order a b ≠ .gt) : a.Before b := by
  rw [← order_eq_lt]
  cases same : order a b with
  | lt => rfl
  | eq => exact absurd (order_eq_eq same) different
  | gt => exact absurd same early

theorem Before.trans (first : a.Before b) (second : b.Before c) : a.Before c := by
  simp only [Before, UInt32.lt_iff_toNat_lt, ← UInt32.toNat_inj, Duration.lt_def,
    Duration.ext_iff] at first second ⊢
  omega

theorem Before.irrefl (a : NextHop) : ¬ a.Before a := by
  simp [Before, Duration.lt_def]

end NextHop

namespace Fib

variable {fib : Fib} {name under : Name} {face : FaceId} {hop other : NextHop}
  {hops others : List NextHop}

/-- The hops under a prefix, none when it is not listed. -/
def hopsUnder (fib : Fib) (under : Name) : List NextHop := fib.routes[under]?.getD []

theorem hopsUnder_addNextHop (fib : Fib) (name : Name) (hop : NextHop) (under : Name) :
    (fib.addNextHop name hop).hopsUnder under =
      if name = under then place hop (without hop.face (fib.hopsUnder name))
      else fib.hopsUnder under := by
  rw [hopsUnder, addNextHop, NameTable.getElem?_insert]
  split <;> rfl

theorem getD_bind_left (face : FaceId) (listed : Option (List NextHop)) :
    (listed.bind (left face)).getD [] = without face (listed.getD []) := by
  cases listed with
  | none => rfl
  | some hops =>
    rw [Option.bind_some, left]
    split
    · rename_i nothing
      exact (List.isEmpty_iff.mp nothing).symm
    · rfl

theorem hopsUnder_removeNextHop (fib : Fib) (name : Name) (face : FaceId) (under : Name) :
    (fib.removeNextHop name face).hopsUnder under =
      if name = under then without face (fib.hopsUnder under) else fib.hopsUnder under := by
  rw [hopsUnder, getElem?_removeNextHop]
  split
  · exact getD_bind_left face _
  · rfl

theorem hopsUnder_removeFace (fib : Fib) (face : FaceId) (under : Name) :
    (fib.removeFace face).hopsUnder under = without face (fib.hopsUnder under) := by
  rw [hopsUnder, getElem?_removeFace]
  exact getD_bind_left face _

theorem mem_place : other ∈ place hop hops ↔ other = hop ∨ other ∈ hops := by
  rw [(perm_place hop hops).mem_iff, List.mem_cons]

theorem mem_without : other ∈ without face hops ↔ other ∈ hops ∧ other.face ≠ face := by
  rw [without, List.mem_filter, bne_iff_ne]

/-- A hop finds its place among hops through other faces. -/
theorem pairwise_place (ascending : hops.Pairwise NextHop.Before)
    (apart : ∀ other ∈ hops, other.face ≠ hop.face) : (place hop hops).Pairwise NextHop.Before := by
  induction hops with
  | nil => exact List.pairwise_singleton _ _
  | cons first rest ih =>
    obtain ⟨above, ascending'⟩ := List.pairwise_cons.mp ascending
    rw [place]
    split
    · rename_i worse
      have before : hop.Before first := NextHop.order_eq_gt.mp worse
      refine List.pairwise_cons.mpr ⟨fun other member => ?_, ascending⟩
      rcases List.mem_cons.mp member with rfl | later
      · exact before
      · exact before.trans (above other later)
    · rename_i noWorse
      refine List.pairwise_cons.mpr ⟨fun other member => ?_, ih ascending' fun other member =>
        apart other (List.mem_cons_of_mem _ member)⟩
      rcases mem_place.mp member with rfl | later
      · exact NextHop.before_of_not_gt (apart first List.mem_cons_self) noWorse
      · exact above other later

theorem pairwise_without (ascending : hops.Pairwise NextHop.Before) (face : FaceId) :
    (without face hops).Pairwise NextHop.Before := ascending.sublist List.filter_sublist

/-- What each prefix that is listed has: some hop, and all of them in order. -/
def Tidy (fib : Fib) : Prop :=
  ∀ (under : Name) (hops : List NextHop), fib.routes[under]? = some hops →
    hops ≠ [] ∧ hops.Pairwise NextHop.Before

theorem tidy_empty : Fib.empty.Tidy := by
  intro under hops found
  simp [Fib.empty] at found

theorem Tidy.hopsUnder (tidy : fib.Tidy) (under : Name) :
    (fib.hopsUnder under).Pairwise NextHop.Before := by
  rw [Fib.hopsUnder]
  cases found : fib.routes[under]? with
  | none => exact List.Pairwise.nil
  | some hops => exact (tidy under hops found).2

theorem Tidy.addNextHop (tidy : fib.Tidy) (name : Name) (hop : NextHop) :
    (fib.addNextHop name hop).Tidy := by
  intro under hops found
  rw [Fib.addNextHop, NameTable.getElem?_insert] at found
  split at found
  · cases found
    refine ⟨fun nothing => ?_, pairwise_place (pairwise_without (tidy.hopsUnder name) hop.face) ?_⟩
    · have member : hop ∈ place hop (without hop.face (fib.routes[name]?.getD [])) :=
        mem_place.mpr (Or.inl rfl)
      rw [nothing] at member
      cases member
    · exact fun other member => (mem_without.mp member).2
  · exact tidy under hops found

theorem Tidy.left (tidy : fib.Tidy) (kept : fib.routes[under]?.bind (Fib.left face) = some hops) :
    hops ≠ [] ∧ hops.Pairwise NextHop.Before := by
  obtain ⟨old, here, kept'⟩ := Option.bind_eq_some_iff.mp kept
  obtain ⟨rfl, some⟩ := left_eq_some kept'
  exact ⟨some, pairwise_without (tidy under old here).2 face⟩

theorem Tidy.removeNextHop (tidy : fib.Tidy) (name : Name) (face : FaceId) :
    (fib.removeNextHop name face).Tidy := by
  intro under hops found
  rw [getElem?_removeNextHop] at found
  split at found
  · exact tidy.left found
  · exact tidy under hops found

theorem Tidy.removeFace (tidy : fib.Tidy) (face : FaceId) : (fib.removeFace face).Tidy := by
  intro under hops found
  rw [getElem?_removeFace] at found
  exact tidy.left found

theorem Tidy.bumpCost (tidy : fib.Tidy) (name : Name) (face : FaceId) (delta : Cost) :
    (fib.bumpCost name face delta).Tidy := by
  unfold Fib.bumpCost
  split
  · exact tidy.addNextHop _ _
  · exact tidy

end Fib

end NamedData
