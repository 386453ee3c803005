/-! The metrics that a process exports. They only grow. -/
namespace Clearance

/-- The tiers of the cache, nearest first. -/
inductive Tier where
  | request
  | shared
  | persistent
  deriving DecidableEq

def Tier.name : Tier → String
  | .request => "request"
  | .shared => "shared"
  | .persistent => "persistent"

structure Metrics where
  requestHits : Nat := 0
  sharedHits : Nat := 0
  persistentHits : Nat := 0
  misses : Nat := 0
  invalidations : Nat := 0
  batchChecks : Nat := 0
  batchSamples : Nat := 0
  warmSamples : Nat := 0
  warmFailures : Nat := 0
  snapshotLoads : Nat := 0
  deriving DecidableEq

/-- How a metric is exported: as a sum, or as the spread of its samples. -/
inductive MetricKind where
  | counter
  | summary
  deriving DecidableEq

def MetricKind.name : MetricKind → String
  | .counter => "counter"
  | .summary => "summary"

structure MetricInfo where
  name : String
  kind : MetricKind
  help : String
  deriving DecidableEq

inductive RecorderError where
  | alreadyInstalled
  deriving DecidableEq

def RecorderError.message : RecorderError → String
  | .alreadyInstalled => "failed to install Prometheus recorder: recorder already installed"

namespace Metrics

/-- Metrics that start from nothing; a process records into one place only. -/
def install : Option Metrics → Except RecorderError Metrics
  | none => .ok {}
  | some _ => .error .alreadyInstalled

def addHit (m : Metrics) : Tier → Metrics
  | .request => { m with requestHits := m.requestHits + 1 }
  | .shared => { m with sharedHits := m.sharedHits + 1 }
  | .persistent => { m with persistentHits := m.persistentHits + 1 }

def infos : List MetricInfo :=
  [⟨"scopeacl_batch_check_duration_seconds", .summary, "Batch check duration in seconds"⟩,
    ⟨"scopeacl_batch_checks_total", .counter,
      "Total number of abilities checked through batch checks"⟩,
    ⟨"scopeacl_cache_hits_total", .counter, "Total number of permission cache hits by tier"⟩,
    ⟨"scopeacl_cache_invalidations_total", .counter, "Total number of user snapshot invalidations"⟩,
    ⟨"scopeacl_cache_misses_total", .counter,
      "Total number of permission cache misses across all tiers"⟩,
    ⟨"scopeacl_cache_warm_duration_seconds", .summary, "Cache warm duration in seconds"⟩,
    ⟨"scopeacl_cache_warm_failures_total", .counter, "Users whose snapshot could not be warmed"⟩,
    ⟨"scopeacl_snapshot_loads_total", .counter,
      "Total number of permission snapshots loaded from storage"⟩]

def descriptions : List String :=
  infos.map (fun i => s!"# HELP {i.name} {i.help}") ++
    infos.map fun i => s!"# TYPE {i.name} {i.kind.name}"

def hitsSeries (t : Tier) : String :=
  s!"scopeacl_cache_hits_total\x7btier=\x22{t.name}\x22\x7d"

def series (m : Metrics) : List (String × Nat) :=
  [("scopeacl_batch_check_duration_seconds_count", m.batchSamples),
    ("scopeacl_batch_checks_total", m.batchChecks),
    (hitsSeries .request, m.requestHits),
    (hitsSeries .shared, m.sharedHits),
    (hitsSeries .persistent, m.persistentHits),
    ("scopeacl_cache_invalidations_total", m.invalidations),
    ("scopeacl_cache_misses_total", m.misses),
    ("scopeacl_cache_warm_duration_seconds_count", m.warmSamples),
    ("scopeacl_cache_warm_failures_total", m.warmFailures),
    ("scopeacl_snapshot_loads_total", m.snapshotLoads)]

end Metrics

end Clearance
