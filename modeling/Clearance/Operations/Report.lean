import Clearance.Decimal.Shortest
import Clearance.Session

/-! Counters over the lives of processes. Each process adds its counts to one record in the
key-value store and starts again from zero. -/
namespace Clearance

structure OperationsConfig where
  metricsEnabled : Bool := true
  metricsTtl : Nat := 86400
  hitRateThreshold : Float := 0.85

structure MetricsReport where
  counters : Counters
  sharedEnabled : Bool
  recommendations : List String

def MetricsReport.hitRate (r : MetricsReport) : Float := r.counters.hitRatio

namespace Operations

def lowHitRate (rate threshold : Float) : String :=
  s!"Hit rate {Decimal.fixed 1 (rate * 100)}% is below {Decimal.fixed 0 (threshold * 100)}%: " ++
    "warm cache for active users"

def recommendations (c : Counters) (sharedEnabled : Bool) (threshold : Float) : List String :=
  (if 0 < c.lookups ∧ c.hitRatio < threshold then [lowHitRate c.hitRatio threshold] else []) ++
  (if sharedEnabled then [] else
    ["Shared-memory tier is disabled: enable it to serve repeat checks without a " ++
      "persistent-store round-trip"]) ++
  (if c.hits < c.invalidations then
    ["Invalidations outnumber cache hits: batch role and permission changes before invalidating"]
  else [])

/-- The recorded counters; none are recorded where the record cannot be read. -/
def recorded : Act Scene Error Counters := do
  match ← Scene.ask (World.getKey metricsKey) with
  | none => return {}
  | some bytes =>
    match Counters.ofBytes? bytes with
    | some c => return c
    | none =>
      Scene.log .metricsUnreadable
      return {}

/-- The recorded counters and those of this process together. -/
def metricsReport (cache : CacheConfig) (config : OperationsConfig) :
    Act Scene Error MetricsReport := do
  let c ← recorded
  let c := c + (← get).counters
  return ⟨c, cache.sharedEnabled, recommendations c cache.sharedEnabled config.hitRateThreshold⟩

def addToRecord (config : OperationsConfig) (delta : Counters) : Act Scene Error Counters := do
  let totals := (← recorded) + delta
  Scene.ask (World.setKey metricsKey totals.toBytes config.metricsTtl)
  Scene.log (.metricsPersisted totals)
  return totals

/-- Moves the counters of this process into the record; if that fails they stay. Without a record
they stay, too. -/
def persistMetrics (config : OperationsConfig) : Act Scene Error Counters := do
  let delta := (← get).counters
  if !config.metricsEnabled then return delta
  modify fun s => { s with counters := {} }
  match ← (addToRecord config delta).attempt with
  | .ok totals => return totals
  | .error e =>
    modify fun s => { s with counters := s.counters + delta }
    throw e

/-- Moves the counters `n` times; failures are logged. -/
def flush (config : OperationsConfig) : Nat → Act Scene Error Unit
  | 0 => return
  | n + 1 => do
    match ← (persistMetrics config).attempt with
    | .ok _ => pure ()
    | .error e => Scene.log (.flushFailed e)
    flush config n

/-- What a task does that moves the counters once in every period, over a span of time; yields
whether it had ended by itself. -/
def flushFor (config : OperationsConfig) (period span : Nat) : Act Scene Error Bool := do
  if !config.metricsEnabled then return true
  flush config ((span - 1) / period)
  return false

end Operations

end Clearance
