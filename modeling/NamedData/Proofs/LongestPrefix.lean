import NamedData.NameTable

namespace NamedData

namespace Name

variable {name under other : Name} {has : Name → Prop} {α : Type}

theorem mem_prefixes {name shorter : Name} :
    shorter ∈ name.prefixes ↔ shorter.isPrefixOf name = true := by
  simp only [Name.prefixes, List.mem_map, List.mem_reverse, List.mem_range, Name.isPrefixOf,
    List.isPrefixOf_iff_prefix]
  constructor
  · rintro ⟨count, _, rfl⟩
    exact List.take_prefix count name.components
  · intro under
    refine ⟨shorter.size, Nat.lt_succ_of_le under.length_le, ?_⟩
    exact Name.ext (List.prefix_iff_eq_take.mp under).symm

/-- The prefixes of a name get shorter and shorter. -/
theorem pairwise_prefixes (name : Name) :
    name.prefixes.Pairwise fun longer shorter => shorter.size < longer.size := by
  rw [prefixes, List.pairwise_map, List.pairwise_reverse]
  refine List.pairwise_lt_range.imp_of_mem fun {count more} _ member less => ?_
  have bound : more < name.size + 1 := List.mem_range.mp member
  simp only [take, size, List.length_take] at bound ⊢
  omega

/-- A prefix of a name is known by its length. -/
theorem eq_of_size_eq (first : under.isPrefixOf name = true) (second : other.isPrefixOf name = true)
    (same : under.size = other.size) : under = other := by
  rw [isPrefixOf, List.isPrefixOf_iff_prefix] at first second
  refine Name.ext ?_
  rw [List.prefix_iff_eq_take.mp first, List.prefix_iff_eq_take.mp second]
  exact congrArg (fun count => name.components.take count) same

/-- The longest of the prefixes of a name that have something. -/
structure Longest (name : Name) (has : Name → Prop) (under : Name) : Prop where
  isPrefix : under.isPrefixOf name = true
  here : has under
  longest : ∀ other : Name, other.isPrefixOf name = true → has other → other.size ≤ under.size

theorem Longest.unique (first : Longest name has under) (second : Longest name has other) :
    under = other :=
  eq_of_size_eq first.isPrefix second.isPrefix
    (Nat.le_antisymm (second.longest under first.isPrefix first.here)
      (first.longest other second.isPrefix second.here))

/-- Going through the prefixes from the longest on, the first that has something is the
longest that has. -/
theorem findSome?_prefixes_eq_some_iff {found : Name → Option α} {value : α} :
    name.prefixes.findSome? found = some value ↔ ∃ under,
      Longest name (fun under => (found under).isSome) under ∧ found under = some value := by
  have longest {value : α} (first : name.prefixes.findSome? found = some value) : ∃ under,
      Longest name (fun under => (found under).isSome) under ∧ found under = some value := by
    obtain ⟨longer, under, shorter, split, here, nothing⟩ := List.findSome?_eq_some_iff.mp first
    have falling := name.pairwise_prefixes
    rw [split, List.pairwise_append, List.pairwise_cons] at falling
    refine ⟨under, ⟨?_, by rw [here]; rfl, fun other isPrefix has => ?_⟩, here⟩
    · rw [← mem_prefixes, split]
      exact List.mem_append_right _ List.mem_cons_self
    · rw [← mem_prefixes, split] at isPrefix
      rcases List.mem_append.mp isPrefix with before | after
      · rw [nothing other before] at has
        cases has
      · rcases List.mem_cons.mp after with same | later
        · exact Nat.le_of_eq (congrArg size same)
        · exact Nat.le_of_lt (falling.2.1.1 other later)
  refine ⟨longest, fun ⟨under, isLongest, here⟩ => ?_⟩
  cases search : name.prefixes.findSome? found with
  | none =>
    rw [List.findSome?_eq_none_iff.mp search under (mem_prefixes.mpr isLongest.isPrefix)] at here
    cases here
  | some other =>
    obtain ⟨under', isLongest', here'⟩ := longest search
    rw [← here, ← here', isLongest.unique isLongest']

theorem findSome?_prefixes_eq_none_iff {found : Name → Option α} :
    name.prefixes.findSome? found = none ↔
      ∀ under : Name, under.isPrefixOf name = true → found under = none := by
  simp only [List.findSome?_eq_none_iff, mem_prefixes]

end Name

namespace NameTable

variable {α : Type} {table : NameTable α} {name under : Name} {value : α}

theorem longestPrefix?_eq_some_iff : table.longestPrefix? name = some (under, value) ↔
    name.Longest (fun under => table[under]?.isSome) under ∧ table[under]? = some value := by
  rw [longestPrefix?, Name.findSome?_prefixes_eq_some_iff]
  simp only [Option.isSome_map, Option.map_eq_some_iff, Prod.mk.injEq]
  constructor
  · rintro ⟨_, longest, _, here, rfl, rfl⟩
    exact ⟨longest, here⟩
  · rintro ⟨longest, here⟩
    exact ⟨under, longest, value, here, rfl, rfl⟩

theorem longestPrefix?_eq_none_iff : table.longestPrefix? name = none ↔
    ∀ under : Name, under.isPrefixOf name = true → table[under]? = none := by
  simp only [longestPrefix?, Name.findSome?_prefixes_eq_none_iff, Option.map_eq_none_iff]

end NameTable

end NamedData
