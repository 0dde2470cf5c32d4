import NamedData.Fib
import NamedData.Settings

namespace NamedData

/-- Decides where a pending Interest goes. Multicast sends it to every usable
next hop. Best-route sends it to the first usable one, and makes a next hop
that lets it expire dearer by a penalty. -/
inductive Strategy where
  | multicast
  | bestRoute (penalty : Cost)
  deriving DecidableEq

/-- Why a strategy could not be chosen. -/
inductive StrategyError where
  | unknown (strategy : String)
  | badName (error : Name.UriError)
  deriving DecidableEq

def StrategyError.message : StrategyError → String
  | unknown strategy => "Unknown strategy: " ++ strategy
  | badName error => "Invalid name: " ++ error.message

namespace Strategy

def toText : Strategy → String
  | multicast => "multicast"
  | bestRoute _ => "best-route"

def isKnown (strategy : String) : Bool := strategyNames.contains strategy

/-- The penalty of best-route is 10 when it is chosen by name. -/
def ofText (strategy : String) : Except StrategyError Strategy :=
  if strategy = "multicast" then .ok .multicast
  else if strategy = "best-route" then .ok (.bestRoute 10)
  else .error (.unknown strategy)

end Strategy

/-- Which strategy serves which part of the namespace. The root always has
one. -/
structure StrategyChoice where
  table : NameTable Strategy

namespace StrategyChoice

/-- Multicast serves everything at first. -/
def standard : StrategyChoice := ⟨(∅ : NameTable Strategy).insert Name.root .multicast⟩

def size (choice : StrategyChoice) : Nat := choice.table.size

def isEmpty (choice : StrategyChoice) : Bool := choice.table.isEmpty

def insert (choice : StrategyChoice) (name : Name) (strategy : String) :
    Except StrategyError StrategyChoice :=
  match Strategy.ofText strategy with
  | .ok strategy => .ok ⟨choice.table.insert name strategy⟩
  | .error error => .error error

def insertSetting (choice : StrategyChoice) (setting : StrategySetting) :
    Except StrategyError StrategyChoice :=
  match Name.ofUri setting.under with
  | .ok name => choice.insert name setting.strategy
  | .error error => .error (.badName error)

def ofSettings (settings : List StrategySetting) : Except StrategyError StrategyChoice :=
  settings.foldlM insertSetting standard

/-- Whether a choice can be taken back: it was made, and not for the root. -/
def canErase (choice : StrategyChoice) (name : Name) : Bool :=
  !name.isRoot && choice.table.contains name

def erase (choice : StrategyChoice) (name : Name) : StrategyChoice :=
  if name.isRoot then choice else ⟨choice.table.erase name⟩

/-- The strategy chosen for the longest prefix of a name. -/
def effective (choice : StrategyChoice) (name : Name) : Strategy :=
  match choice.table.longestPrefix? name with
  | some (_, strategy) => strategy
  | none => .multicast

end StrategyChoice

end NamedData
