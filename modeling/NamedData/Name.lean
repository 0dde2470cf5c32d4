namespace NamedData

/-- A component is any string of bytes, the empty one included. -/
abbrev Component := List UInt8

/-- A hierarchical name. The root name has no components. -/
@[ext] structure Name where
  components : List Component
  deriving DecidableEq

namespace Name

def root : Name := ⟨[]⟩

instance : Inhabited Name := ⟨root⟩

def size (name : Name) : Nat := name.components.length

def isRoot (name : Name) : Bool := name.components.isEmpty

def component? (name : Name) (index : Nat) : Option Component := name.components[index]?

def append (name : Name) (component : Component) : Name := ⟨name.components ++ [component]⟩

/-- Sequence numbers are components of decimal digits. -/
def appendSequence (name : Name) (number : Nat) : Name :=
  name.append ((Nat.toDigits 10 number).map fun digit => UInt8.ofNat digit.toNat)

/-- The first components of a name, all of them when it has fewer. -/
def take (name : Name) (count : Nat) : Name := ⟨name.components.take count⟩

def isPrefixOf (shorter longer : Name) : Bool := shorter.components.isPrefixOf longer.components

/-- Every prefix of a name, itself first and the root last. -/
def prefixes (name : Name) : List Name := (List.range (name.size + 1)).reverse.map name.take

/-- Names compare component by component, and a component compares byte by
byte, so a name comes right before the names that extend it. -/
instance : Ord Name := ⟨fun a b => compare a.components b.components⟩

theorem compare_def (a b : Name) : compare a b = compare a.components b.components := rfl

/-- Traffic under this name stays on the host. -/
def localhost : Name := ⟨[[108, 111, 99, 97, 108, 104, 111, 115, 116]]⟩

/-- Traffic under this name travels at most one hop from the host. -/
def localhop : Name := ⟨[[108, 111, 99, 97, 108, 104, 111, 112]]⟩

end Name

end NamedData
