import Clearance.Cache.Tiers
import Clearance.Decimal.Shortest
import Clearance.Text.Lowercase

/-! What an engine can be set to, and which settings are valid. -/
namespace Clearance

inductive Environment where
  | production
  | staging
  | development
  | test
  deriving DecidableEq

namespace Environment

def all : List Environment := [production, staging, development, test]

def name : Environment → String
  | production => "production"
  | staging => "staging"
  | development => "development"
  | test => "test"

def ofName? (s : String) : Option Environment := all.find? (·.name = s)

def isProduction (e : Environment) : Bool := e = production

end Environment

namespace Settings

/-- Times are in seconds. -/
structure Cache where
  persistentTtl : Nat := 3600
  sharedEnabled : Bool := true
  sharedTtl : Nat := 60
  sharedCapacity : Nat := 10000

structure Metrics where
  enabled : Bool := true
  ttl : Nat := 86400
  hitRateThreshold : Float := 0.85

structure Storage where
  backend : String := "memory"

structure Logging where
  level : String := "info"
  json : Bool := false
  spans : Bool := false

end Settings

structure Settings where
  environment : Environment := .production
  cache : Settings.Cache := {}
  metrics : Settings.Metrics := {}
  storage : Settings.Storage := {}
  logging : Settings.Logging := {}

inductive SettingsProblem where
  | backend (given : String)
  | notPositive (field : String)
  | ttlTooLong (field : String) (given : Nat)
  | sharedOutlivesPersistent
  | threshold (given : Float)
  | level (given : String)
  | logLevel (given : String)

inductive LoadError where
  | unreadable
  | fileNotFound (path : String)
  | invalid (p : SettingsProblem)

namespace Settings

def maxTtl : Nat := 365 * 24 * 60 * 60

def backends : List String := ["memory"]

def levelNames : List String := LogLevel.all.map (·.name)

def persistentTtlField : String := "cache.persistent_ttl_secs"

def sharedTtlField : String := "cache.shared_memory_ttl_secs"

def sharedCapacityField : String := "cache.shared_memory_max_capacity"

def metricsTtlField : String := "metrics.ttl_secs"

def describeChoice (words : List String) : String :=
  let names := String.intercalate ", " (words.map Text.quote)
  s!"[{names}]"

end Settings

def SettingsProblem.message : SettingsProblem → String
  | backend given =>
    s!"storage.backend must be one of: {Settings.describeChoice Settings.backends}, got: {given}"
  | notPositive field => s!"{field} must be greater than 0"
  | ttlTooLong field given => s!"{field} must not exceed {Settings.maxTtl}, got: {given}"
  | sharedOutlivesPersistent =>
    s!"{Settings.sharedTtlField} must not exceed {Settings.persistentTtlField}"
  | threshold given =>
    s!"metrics.hit_rate_threshold must be between 0 and 1, got: {Decimal.natural given}"
  | level given =>
    s!"logging.level must be one of: {Settings.describeChoice Settings.levelNames}, got: {given}"
  | logLevel given => s!"logging.level is not a log level: {given}"

def LoadError.message : LoadError → String
  | unreadable => "failed to load configuration"
  | fileNotFound path => s!"configuration file not found: {path}"
  | invalid p => s!"invalid configuration: {p.message}"

namespace Settings

def reject (bad : Bool) (p : SettingsProblem) : Option SettingsProblem :=
  if bad then some p else none

def Cache.sharedProblem? (c : Cache) : Option SettingsProblem :=
  if c.sharedEnabled then
    reject (c.sharedTtl = 0) (.notPositive sharedTtlField) <|>
    reject (c.persistentTtl < c.sharedTtl) .sharedOutlivesPersistent <|>
    reject (c.sharedCapacity = 0) (.notPositive sharedCapacityField)
  else none

def problem? (s : Settings) : Option SettingsProblem :=
  reject (!backends.contains s.storage.backend) (.backend s.storage.backend) <|>
  reject (s.cache.persistentTtl = 0) (.notPositive persistentTtlField) <|>
  reject (maxTtl < s.cache.persistentTtl) (.ttlTooLong persistentTtlField s.cache.persistentTtl) <|>
  reject (maxTtl < s.cache.sharedTtl) (.ttlTooLong sharedTtlField s.cache.sharedTtl) <|>
  reject (maxTtl < s.metrics.ttl) (.ttlTooLong metricsTtlField s.metrics.ttl) <|>
  s.cache.sharedProblem? <|>
  reject (s.metrics.ttl = 0) (.notPositive metricsTtlField) <|>
  reject (!(0 ≤ s.metrics.hitRateThreshold && s.metrics.hitRateThreshold ≤ 1))
    (.threshold s.metrics.hitRateThreshold) <|>
  reject (!levelNames.contains (Text.lower s.logging.level)) (.level s.logging.level)

def validate (s : Settings) : Except LoadError Unit :=
  match s.problem? with
  | some p => .error (.invalid p)
  | none => .ok ()

def cacheConfig (s : Settings) : CacheConfig where
  persistentTtl := s.cache.persistentTtl
  sharedEnabled := s.cache.sharedEnabled
  sharedTtl := s.cache.sharedTtl
  sharedCapacity := s.cache.sharedCapacity

end Settings

end Clearance
