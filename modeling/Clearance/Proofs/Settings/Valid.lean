import Clearance.Deployment.Basic

/-! Valid settings. What their checks leave is said once, and it bounds the times and sizes of every
engine that is made from them. -/
namespace Clearance

namespace Settings

/-- The shared tier can hold something, and nothing in it outlives the third tier. -/
structure Cache.SharedValid (c : Cache) : Prop where
  ttl_pos : 0 < c.sharedTtl
  ttl_le : c.sharedTtl ≤ c.persistentTtl
  capacity_pos : 0 < c.sharedCapacity

structure Valid (s : Settings) : Prop where
  backend : s.storage.backend ∈ backends
  persistentTtl_pos : 0 < s.cache.persistentTtl
  persistentTtl_le : s.cache.persistentTtl ≤ maxTtl
  /-- Also where the shared tier is disabled. -/
  sharedTtl_le : s.cache.sharedTtl ≤ maxTtl
  shared : s.cache.sharedEnabled = true → s.cache.SharedValid
  metricsTtl_pos : 0 < s.metrics.ttl
  metricsTtl_le : s.metrics.ttl ≤ maxTtl
  threshold : 0 ≤ s.metrics.hitRateThreshold ∧ s.metrics.hitRateThreshold ≤ 1
  level : Text.lower s.logging.level ∈ levelNames

theorem reject_eq_none {bad : Bool} {p : SettingsProblem} : reject bad p = none ↔ bad = false := by
  cases bad <;> simp [reject]

theorem Cache.sharedProblem?_eq_none {c : Cache} :
    c.sharedProblem? = none ↔ (c.sharedEnabled = true → c.SharedValid) := by
  unfold sharedProblem?
  cases c.sharedEnabled with
  | false => simp
  | true =>
    simp only [if_true, Option.orElse_eq_orElse, Option.orElse_eq_or, Option.or_eq_none_iff,
      reject_eq_none, decide_eq_false_iff_not, true_imp_iff]
    constructor
    · rintro ⟨httl, hle, hcapacity⟩
      exact ⟨by omega, by omega, by omega⟩
    · rintro ⟨httl, hle, hcapacity⟩
      exact ⟨by omega, by omega, by omega⟩

/-- There is no problem exactly where every check is passed. -/
theorem problem?_eq_none {s : Settings} : s.problem? = none ↔ s.Valid := by
  simp only [problem?, Option.orElse_eq_orElse, Option.orElse_eq_or, Option.or_eq_none_iff,
    reject_eq_none, Cache.sharedProblem?_eq_none, decide_eq_false_iff_not, Bool.not_eq_false',
    Bool.and_eq_true, decide_eq_true_eq, List.contains_iff_mem]
  constructor
  · rintro ⟨hbackend, hpos, hpersistent, hshared, hmetrics, htier, hmetricsPos, hthreshold, hlevel⟩
    exact ⟨hbackend, by omega, by omega, by omega, htier, by omega, by omega, hthreshold, hlevel⟩
  · rintro ⟨hbackend, hpos, hpersistent, hshared, htier, hmetricsPos, hmetrics, hthreshold, hlevel⟩
    exact ⟨hbackend, by omega, by omega, by omega, by omega, htier, by omega, hthreshold, hlevel⟩

theorem validate_eq_ok {s : Settings} : s.validate = .ok () ↔ s.Valid := by
  rw [← problem?_eq_none, validate]
  cases s.problem? <;> simp

section Engines

variable {Obj : Type} {s : Settings} {spec : EngineSpec Obj} {e : Engine Obj}

/-- The engine runs with these settings. -/
structure Governs (s : Settings) (e : Engine Obj) : Prop where
  valid : s.Valid
  cache : e.service.cache = s.cacheConfig
  operations : e.operations = Engine.operationsConfig s
  environment : e.environment = some s.environment

/-- An engine that is made from settings runs with them, and none is made from others than valid
ones. -/
theorem governs_of_build {events : List Event} (hs : spec.source = .settings (some s))
    (h : spec.build = .ok (e, events)) : s.Governs e := by
  unfold EngineSpec.build at h
  rw [hs] at h
  cases hpolicies : (PolicyRegistry.ofList spec.policies).mapError SetupError.policy with
  | error e =>
    rw [hpolicies] at h
    cases h
  | ok policies =>
    cases hproblem : s.problem? with
    | some problem =>
      simp only [hpolicies, Engine.ofSettings, hproblem] at h
      cases h
    | none =>
      simp only [hpolicies, Engine.ofSettings, hproblem] at h
      cases h
      exact ⟨problem?_eq_none.1 hproblem, rfl, rfl, rfl⟩

end Engines

end Settings

end Clearance
