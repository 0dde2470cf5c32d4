import NamedData.Name.Uri
import NamedData.Time

namespace NamedData

/-- Asks for a strategy, by its name, for everything under a prefix. -/
structure StrategySetting where
  under : String
  strategy : String
  deriving DecidableEq

/-- How a forwarder is set up. Times are in milliseconds. -/
structure Settings where
  /-- The lifetime of Interests that carry none. -/
  defaultInterestLifetime : Nat := 4000
  /-- How long a settled entry lingers. -/
  stragglerTime : Nat := 100
  deadNonceLifetime : Nat := 6000
  deadNonceCapacity : Nat := 65536
  contentStoreCapacity : Nat := 1000
  strategies : List StrategySetting := [⟨"/", "multicast"⟩]
  deriving DecidableEq

/-- The strategies there are, by name. -/
def strategyNames : List String := ["multicast", "best-route"]

/-- Why settings are refused. -/
inductive SettingsError where
  | zeroInterestLifetime
  | zeroDeadNonceLifetime
  | zeroDeadNonceCapacity
  | badPrefix (under : String) (error : Name.UriError)
  | unknownStrategy (strategy under : String)
  deriving DecidableEq

def SettingsError.message : SettingsError → String
  | zeroInterestLifetime => "default_interest_lifetime_ms must be positive"
  | zeroDeadNonceLifetime => "dead_nonce_list.lifetime_ms must be positive"
  | zeroDeadNonceCapacity => "dead_nonce_list.capacity must be positive"
  | badPrefix under error => "strategy prefix " ++ Text.quoted under ++ ": " ++ error.message
  | unknownStrategy strategy under =>
    "unknown strategy " ++ Text.quoted strategy ++ " for prefix " ++ under

/-- Checks one request for a strategy: the prefix first, then the name. -/
def StrategySetting.check (setting : StrategySetting) : Except SettingsError Unit :=
  match Name.ofUri setting.under with
  | .error error => .error (.badPrefix setting.under error)
  | .ok _ =>
    if strategyNames.contains setting.strategy then .ok ()
    else .error (.unknownStrategy setting.strategy setting.under)

namespace Settings

def check (settings : Settings) : Except SettingsError Unit :=
  if settings.defaultInterestLifetime = 0 then .error .zeroInterestLifetime
  else if settings.deadNonceLifetime = 0 then .error .zeroDeadNonceLifetime
  else if settings.deadNonceCapacity = 0 then .error .zeroDeadNonceCapacity
  else settings.strategies.forM StrategySetting.check

def interestLifetime (settings : Settings) : Duration :=
  Duration.ofMillis settings.defaultInterestLifetime

def stragglerDelay (settings : Settings) : Duration := Duration.ofMillis settings.stragglerTime

def nonceLifetime (settings : Settings) : Duration := Duration.ofMillis settings.deadNonceLifetime

end Settings

end NamedData
