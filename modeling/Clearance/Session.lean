import Clearance.Cache.Tiers
import Clearance.Policy.Basic

/-! Decisions. A session is one unit of work: it holds the first tier of the cache and asks, in this
order, the policy of the subject's kind, whether the user is a super-admin, and whether a context
above the subject grants the ability. -/
namespace Clearance

/-- What a process is set up with and keeps for good. -/
structure Service (Obj : Type) where
  resolver : Resolver
  policies : PolicyRegistry Obj
  cache : CacheConfig

namespace Service

variable {Obj : Type} [DomainObject Obj]

def builtEvent (v : Service Obj) : Event :=
  .serviceBuilt v.resolver.parents.size v.policies.size v.cache.sharedEnabled

def resolve (v : Service Obj) (subject : Subject Obj) : Act Scene Error Context :=
  Scene.onAtlas (v.resolver.resolve subject)

/-- The snapshot of a user from the cache; one that had to be loaded is cached. -/
def snapshot (v : Service Obj) (user : UserId) : Act Scene Error Snapshot := do
  match ← Cache.lookUp v.cache user with
  | some (p, _) => return p
  | none =>
    let p ← Scene.onWorld (World.loadSnapshot user)
    Cache.put v.cache user p v.cache.persistentTtl
    return p

def checkRoles (v : Service Obj) (user : UserId) (ability : String) (subject : Subject Obj) :
    Act Scene Error Bool := do
  let p ← v.snapshot user
  if p.isSuperAdmin then
    Scene.log (.decided .superAdmin user ability)
    return true
  let c ← v.resolve subject
  let grantedAt := p.findPermission c.ancestors ability
  Scene.log (.hierarchyWalked user ability c.id grantedAt)
  return grantedAt.isSome

/-- Whether the user may do this to the subject. A policy that denies with a reason is a failure;
any other denial is an answer. -/
def check (v : Service Obj) (user : UserId) (ability : String) (subject : Subject Obj) :
    Act Scene Error Bool := do
  match v.policies.evaluate user ability subject with
  | some .allow =>
    Scene.log (.decided .allowedByPolicy user ability)
    return true
  | some .deny =>
    Scene.log (.decided .deniedByPolicy user ability)
    return false
  | some (.denyBecause reason) => throw (.denied ability (some reason))
  | none => v.checkRoles user ability subject

def authorize (v : Service Obj) (user : UserId) (ability : String) (subject : Subject Obj) :
    Act Scene Error Unit := do
  if !(← v.check user ability subject) then throw (.denied ability none)

def hasRole (v : Service Obj) (user : UserId) (name : String) (subject : Subject Obj) :
    Act Scene Error Bool := do
  let c ← v.resolve subject
  let p ← v.snapshot user
  return (p.findRole c.ancestors name).isSome

def isSuperAdmin (v : Service Obj) (user : UserId) : Act Scene Error Bool := do
  return (← v.snapshot user).isSuperAdmin

def actAsSuperAdmin (v : Service Obj) (user : UserId) : Act Scene Error Unit :=
  Cache.put v.cache user .ofSuperAdmin v.cache.persistentTtl

/-- Runs with nothing held, and holds afterwards what was held before. -/
def inFreshSession {ε α : Type} (t : Act Scene ε α) : Act Scene ε α := .ofFun fun s =>
  let (r, s') := t.runFrom { s with held := .empty }
  (r, { s' with held := s.held })

end Service

end Clearance
