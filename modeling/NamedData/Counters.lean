import NamedData.Binary64

namespace NamedData

/-- What one forwarder has counted: packets, and decisions about them. -/
structure Counters where
  inInterests : Nat := 0
  outInterests : Nat := 0
  inData : Nat := 0
  outData : Nat := 0
  interestLoops : Nat := 0
  /-- Known nonces from another downstream. -/
  duplicateNonces : Nat := 0
  /-- Interests meant for another receiver on the link. -/
  foreignTargetDrops : Nat := 0
  cacheHits : Nat := 0
  cacheMisses : Nat := 0
  satisfiedInterests : Nat := 0
  unsatisfiedInterests : Nat := 0
  rejectedInterests : Nat := 0
  unsolicitedData : Nat := 0
  scopeViolations : Nat := 0
  invalidFaceSends : Nat := 0
  strategyViolations : Nat := 0
  deriving DecidableEq

namespace Counters

/-- Every counter under the name it is reported by, in reporting order. -/
def fields (counters : Counters) : List (String × Nat) :=
  [("in_interests", counters.inInterests),
    ("out_interests", counters.outInterests),
    ("in_data", counters.inData),
    ("out_data", counters.outData),
    ("interest_loops", counters.interestLoops),
    ("duplicate_nonces", counters.duplicateNonces),
    ("foreign_target_drops", counters.foreignTargetDrops),
    ("cs_hits", counters.cacheHits),
    ("cs_misses", counters.cacheMisses),
    ("satisfied_interests", counters.satisfiedInterests),
    ("unsatisfied_interests", counters.unsatisfiedInterests),
    ("rejected_interests", counters.rejectedInterests),
    ("unsolicited_data", counters.unsolicitedData),
    ("scope_violations", counters.scopeViolations),
    ("invalid_face_sends", counters.invalidFaceSends),
    ("strategy_violations", counters.strategyViolations)]

/-- Counters given by the names they are reported by. Those not given are 0. -/
def ofFields (value : String → Nat) : Counters where
  inInterests := value "in_interests"
  outInterests := value "out_interests"
  inData := value "in_data"
  outData := value "out_data"
  interestLoops := value "interest_loops"
  duplicateNonces := value "duplicate_nonces"
  foreignTargetDrops := value "foreign_target_drops"
  cacheHits := value "cs_hits"
  cacheMisses := value "cs_misses"
  satisfiedInterests := value "satisfied_interests"
  unsatisfiedInterests := value "unsatisfied_interests"
  rejectedInterests := value "rejected_interests"
  unsolicitedData := value "unsolicited_data"
  scopeViolations := value "scope_violations"
  invalidFaceSends := value "invalid_face_sends"
  strategyViolations := value "strategy_violations"

/-- Adds two sets of counters, counter by counter. -/
instance : Add Counters where
  add a b :=
    { inInterests := a.inInterests + b.inInterests
      outInterests := a.outInterests + b.outInterests
      inData := a.inData + b.inData
      outData := a.outData + b.outData
      interestLoops := a.interestLoops + b.interestLoops
      duplicateNonces := a.duplicateNonces + b.duplicateNonces
      foreignTargetDrops := a.foreignTargetDrops + b.foreignTargetDrops
      cacheHits := a.cacheHits + b.cacheHits
      cacheMisses := a.cacheMisses + b.cacheMisses
      satisfiedInterests := a.satisfiedInterests + b.satisfiedInterests
      unsatisfiedInterests := a.unsatisfiedInterests + b.unsatisfiedInterests
      rejectedInterests := a.rejectedInterests + b.rejectedInterests
      unsolicitedData := a.unsolicitedData + b.unsolicitedData
      scopeViolations := a.scopeViolations + b.scopeViolations
      invalidFaceSends := a.invalidFaceSends + b.invalidFaceSends
      strategyViolations := a.strategyViolations + b.strategyViolations }

/-- The share of cache lookups that hit, 0 when there was none. -/
def cacheHitRatio (counters : Counters) : Binary64 :=
  let lookups := counters.cacheHits + counters.cacheMisses
  if lookups = 0 then Binary64.zero
  else (Binary64.ofNat counters.cacheHits).div (Binary64.ofNat lookups)

/-- The same share in percent. -/
def cacheHitPercent (counters : Counters) : Binary64 :=
  counters.cacheHitRatio.mul (Binary64.ofNat 100)

end Counters

end NamedData
