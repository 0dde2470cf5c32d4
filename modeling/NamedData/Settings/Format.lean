import NamedData.Document.Load
import NamedData.Settings

namespace NamedData

open Document (wordLimit)

def StrategySetting.ofDocument? (surplus : Bool) (document : Document) :
    Option StrategySetting := do
  let members ← document.members? surplus ["prefix", "name"]
  let under ← members.required "prefix" Document.text?
  let strategy ← members.required "name" Document.text?
  return { under, strategy }

def StrategySetting.toDocument (setting : StrategySetting) : Document :=
  .table [("prefix", .text setting.under), ("name", .text setting.strategy)]

namespace Settings

/-- The defaults. -/
def standard : Settings := {}

def readDeadNonces? (surplus : Bool) (document : Document) : Option (Nat × Nat) := do
  let members ← document.members? surplus ["lifetime_ms", "capacity"]
  let lifetime ← members.withDefault "lifetime_ms" standard.deadNonceLifetime
    (Document.natural? wordLimit)
  let capacity ← members.withDefault "capacity" standard.deadNonceCapacity
    (Document.natural? wordLimit)
  return (lifetime, capacity)

def readContentStore? (surplus : Bool) (document : Document) : Option Nat := do
  let members ← document.members? surplus ["capacity"]
  members.withDefault "capacity" standard.contentStoreCapacity (Document.natural? wordLimit)

/-- Reads settings. Whatever is left out keeps its default. -/
def ofDocument? (surplus : Bool) (document : Document) : Option Settings := do
  let members ← document.members? surplus
    ["default_interest_lifetime_ms", "straggler_time_ms", "dead_nonce_list", "content_store",
      "strategy"]
  let defaultInterestLifetime ← members.withDefault "default_interest_lifetime_ms"
    standard.defaultInterestLifetime (Document.natural? wordLimit)
  let stragglerTime ← members.withDefault "straggler_time_ms" standard.stragglerTime
    (Document.natural? wordLimit)
  let (deadNonceLifetime, deadNonceCapacity) ← members.withDefault "dead_nonce_list"
    (standard.deadNonceLifetime, standard.deadNonceCapacity) (readDeadNonces? surplus)
  let contentStoreCapacity ← members.withDefault "content_store" standard.contentStoreCapacity
    (readContentStore? surplus)
  let strategies ← members.withDefault "strategy" standard.strategies
    (Document.listOf? (StrategySetting.ofDocument? surplus))
  return {
    defaultInterestLifetime, stragglerTime, deadNonceLifetime, deadNonceCapacity,
    contentStoreCapacity, strategies }

def toDocument (settings : Settings) : Document :=
  .table [
    ("default_interest_lifetime_ms", .integer settings.defaultInterestLifetime),
    ("straggler_time_ms", .integer settings.stragglerTime),
    ("dead_nonce_list", .table [
      ("lifetime_ms", .integer settings.deadNonceLifetime),
      ("capacity", .integer settings.deadNonceCapacity)]),
    ("content_store", .table [("capacity", .integer settings.contentStoreCapacity)]),
    ("strategy", .sequence (settings.strategies.map StrategySetting.toDocument))]

/-- Reads settings from TOML and checks them. -/
def ofToml (text : String) : Except (LoadError SettingsError) Settings :=
  match (Toml.ofText? text).bind (ofDocument? true) with
  | none => .error .malformed
  | some settings =>
    match settings.check with
    | .ok _ => .ok settings
    | .error cause => .error (.refused cause)

/-- Loads settings from a file. Without a file the defaults hold. -/
def load : TextFile → Except (LoadError SettingsError) Settings
  | .missing => .ok standard
  | .unreadable => .error .noText
  | .text content => ofToml content

def strategyToml (setting : StrategySetting) : String :=
  "\n[[strategy]]\n" ++ Toml.lineText "prefix" (Toml.stringText setting.under) ++
    Toml.lineText "name" (Toml.stringText setting.strategy)

/-- Writes settings as TOML: first the plain values, then a table for each
group. -/
def tomlText? (settings : Settings) : Option String := do
  let interestLifetime ← Toml.numberText? settings.defaultInterestLifetime
  let stragglerTime ← Toml.numberText? settings.stragglerTime
  let nonceLifetime ← Toml.numberText? settings.deadNonceLifetime
  let nonceCapacity ← Toml.numberText? settings.deadNonceCapacity
  let storeCapacity ← Toml.numberText? settings.contentStoreCapacity
  return Toml.lineText "default_interest_lifetime_ms" interestLifetime ++
    Toml.lineText "straggler_time_ms" stragglerTime ++
    (if settings.strategies.isEmpty then Toml.lineText "strategy" "[]" else "") ++
    "\n[dead_nonce_list]\n" ++ Toml.lineText "lifetime_ms" nonceLifetime ++
    Toml.lineText "capacity" nonceCapacity ++
    "\n[content_store]\n" ++ Toml.lineText "capacity" storeCapacity ++
    String.join (settings.strategies.map strategyToml)

/-- Why settings were not written: TOML has no room for a number, or a text has
too many quotes in a row. -/
inductive WriteError where
  | numberTooLarge
  | tooManyQuotes
  deriving DecidableEq

/-- Writes settings as TOML. Every number is seen before any text is. -/
def toToml (settings : Settings) : Except WriteError String :=
  match settings.tomlText? with
  | none => .error .numberTooLarge
  | some text =>
    if settings.strategies.all fun setting =>
        Toml.isWritable setting.under && Toml.isWritable setting.strategy
    then .ok text else .error .tooManyQuotes

end Settings

/-- Refused settings are reported as an invalid configuration. -/
def SettingsError.report (error : SettingsError) : String :=
  "Invalid configuration: " ++ error.message

end NamedData
