import Clearance.Operations.Report
import Clearance.Settings.Basic

/-! An engine: a service with its operations, set up once. -/
namespace Clearance

/-- Why an engine could not be set up or did not permit an operation. -/
inductive EngineError where
  | settings (e : LoadError)
  | notPermitted (operation : String) (environment : Environment)
  | engine (e : Error)

def EngineError.message : EngineError → String
  | settings e => e.message
  | notPermitted operation environment =>
    s!"{operation} is not permitted in the {environment.name} environment"
  | engine e => e.message

structure Engine (Obj : Type) where
  service : Service Obj
  operations : OperationsConfig
  /-- Where it runs; unknown for one that was not made from settings. -/
  environment : Option Environment

namespace Engine

variable {Obj : Type}

def withParts (service : Service Obj) (operations : OperationsConfig) : Engine Obj :=
  ⟨service, operations, none⟩

def operationsConfig (s : Settings) : OperationsConfig :=
  ⟨s.metrics.enabled, s.metrics.ttl, s.metrics.hitRateThreshold⟩

/-- The engine with these settings, which must be valid. -/
def ofSettings (s : Settings) (parents : ParentRegistry) (policies : PolicyRegistry Obj) :
    Except EngineError (Engine Obj) :=
  match s.problem? with
  | some p => .error (.settings (.invalid p))
  | none =>
    .ok ⟨⟨⟨parents, Resolver.defaultMaxDepth⟩, policies, s.cacheConfig⟩, operationsConfig s,
      some s.environment⟩

def readyEvent (s : Settings) : Event :=
  .engineReady s.environment.name s.storage.backend s.cache.sharedEnabled s.cache.persistentTtl

variable [DomainObject Obj]

/-- Makes a user a super-admin until the next invalidation, but not in production. -/
def actAsSuperAdmin (e : Engine Obj) (environment : Environment) (user : UserId) :
    Act Scene EngineError Unit := do
  if environment.isProduction then
    throw (.notPermitted "act_as_super_admin" environment)
  Scene.log (.superAdminSeeded user environment.name)
  (e.service.actAsSuperAdmin user).mapError .engine

end Engine

end Clearance
