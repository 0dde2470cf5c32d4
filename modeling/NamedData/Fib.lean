import NamedData.NameTable
import NamedData.Packet

namespace NamedData

/-- The cost of a route. Costs stop at the largest 32-bit number. -/
abbrev Cost := UInt32

def Cost.raise (cost delta : Cost) : Cost :=
  UInt32.ofNat (min (cost.toNat + delta.toNat) 4294967295)

/-- One way towards the Data under a prefix. -/
structure NextHop where
  face : FaceId
  cost : Cost
  targetHint : Option String := none
  latency : Option Duration := none
  deriving DecidableEq

/-- Cheaper hops come first, then quicker ones, then those of smaller faces. A
hop of unknown latency counts as the slowest. -/
def NextHop.order (a b : NextHop) : Ordering :=
  (compare a.cost b.cost).then <|
    (compare (a.latency.getD Duration.max) (b.latency.getD Duration.max)).then <|
      compare a.face b.face

/-- The ways towards the Data under a name. -/
structure FibEntry where
  name : Name
  nextHops : List NextHop
  deriving DecidableEq

def FibEntry.hasNextHop (entry : FibEntry) (face : FaceId) : Bool :=
  entry.nextHops.any (·.face == face)

/-- Forwarding information: the ways towards the Data under each prefix, the
best one first. A prefix with no way left is not listed. -/
structure Fib where
  routes : NameTable (List NextHop)

namespace Fib

def empty : Fib := ⟨∅⟩

def size (fib : Fib) : Nat := fib.routes.size

def isEmpty (fib : Fib) : Bool := fib.routes.isEmpty

def entries (fib : Fib) : List FibEntry := fib.routes.toList.map fun row => ⟨row.1, row.2⟩

/-- Puts a hop behind every hop that is no worse. -/
def place (hop : NextHop) : List NextHop → List NextHop
  | [] => [hop]
  | first :: rest =>
    if NextHop.order first hop = .gt then hop :: first :: rest else first :: place hop rest

def without (face : FaceId) (hops : List NextHop) : List NextHop := hops.filter (·.face != face)

/-- Adds a way, in place of the one through the same face. -/
def addNextHop (fib : Fib) (name : Name) (hop : NextHop) : Fib :=
  ⟨fib.routes.insert name (place hop (without hop.face (fib.routes[name]?.getD [])))⟩

def hasNextHop (fib : Fib) (name : Name) (face : FaceId) : Bool :=
  (fib.routes[name]?.getD []).any (·.face == face)

def setNextHops (fib : Fib) (name : Name) (hops : List NextHop) : Fib :=
  if hops.isEmpty then ⟨fib.routes.erase name⟩ else ⟨fib.routes.insert name hops⟩

/-- Removes the way through a face, if there is one. -/
def removeNextHop (fib : Fib) (name : Name) (face : FaceId) : Fib :=
  match fib.routes[name]? with
  | some hops => fib.setNextHops name (without face hops)
  | none => fib

def removeFace (fib : Fib) (face : FaceId) : Fib :=
  ⟨fib.routes.filterMap fun _ hops =>
    let kept := without face hops
    if kept.isEmpty then none else some kept⟩

/-- How many ways go through a face. -/
def faceCount (fib : Fib) (face : FaceId) : Nat :=
  fib.routes.values.foldl (fun count hops => count + hops.countP (·.face == face)) 0

def find? (fib : Fib) (name : Name) : Option FibEntry :=
  fib.routes[name]?.map fun hops => ⟨name, hops⟩

/-- The entry of the longest prefix that has one. When none has, the root
stands in with no way at all. -/
def longestPrefixMatch (fib : Fib) (name : Name) : FibEntry :=
  match fib.routes.longestPrefix? name with
  | some (under, hops) => ⟨under, hops⟩
  | none => ⟨Name.root, []⟩

/-- The longest prefix of a name with a way through the face, and that way. -/
def routeThrough? (fib : Fib) (name : Name) (face : FaceId) : Option (Name × NextHop) :=
  name.prefixes.findSome? fun under =>
    ((fib.routes[under]?.getD []).find? (·.face == face)).map (under, ·)

/-- Makes the closest way through a face dearer. -/
def bumpCost (fib : Fib) (name : Name) (face : FaceId) (delta : Cost) : Fib :=
  match fib.routeThrough? name face with
  | some (under, hop) => fib.addNextHop under { hop with cost := hop.cost.raise delta }
  | none => fib

end Fib

end NamedData
