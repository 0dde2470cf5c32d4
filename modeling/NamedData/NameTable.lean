import NamedData.Name
import Std.Data.ExtTreeMap.Lemmas

namespace NamedData

instance : Std.TransOrd Name where
  eq_swap {a b} :=
    @Std.OrientedCmp.eq_swap (List Component) compare _ a.components b.components
  isLE_trans {a b c} :=
    @Std.TransCmp.isLE_trans (List Component) compare _ a.components b.components c.components

instance : Std.LawfulEqOrd Name where
  eq_of_compare {_ _} same :=
    Name.ext (@Std.LawfulEqCmp.eq_of_compare (List Component) compare _ _ _ same)

/-- A table holds at most one value under each name, and lists them in
ascending order of the names. -/
abbrev NameTable (α : Type) := Std.ExtTreeMap Name α compare

namespace NameTable

variable {α : Type}

/-- The row of the longest prefix of a name that has one. -/
def longestPrefix? (table : NameTable α) (name : Name) : Option (Name × α) :=
  name.prefixes.findSome? fun shorter => table[shorter]?.map (shorter, ·)

/-- From a row upwards, the first value that passes a test among the rows whose
names extend a name. Those names follow each other, so the first other name
ends the search. The count bounds the rows looked at. -/
def firstUnder (table : NameTable α) (under : Name) (wanted : α → Bool) :
    Nat → Option (Name × α) → Option α
  | 0, _ | _, none => none
  | count + 1, some (name, value) =>
    if !under.isPrefixOf name then none
    else if wanted value then some value
    else firstUnder table under wanted count (table.getEntryGT? name)

/-- Of the values that pass a test, the one of the least name that extends a
name. -/
def findUnder? (table : NameTable α) (under : Name) (wanted : α → Bool) : Option α :=
  firstUnder table under wanted table.size (table.getEntryGE? under)

end NameTable

end NamedData
