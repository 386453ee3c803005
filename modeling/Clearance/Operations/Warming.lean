import Clearance.Session

/-! Loading the snapshots of users ahead of their checks. -/
namespace Clearance

structure WarmStats where
  total : Nat
  warmed : Nat
  failed : Nat
  deriving DecidableEq

namespace Operations

variable {Obj : Type} [DomainObject Obj]

/-- An ability that nobody is granted. -/
def warmupAbility : String := "__warmup__"

def warmUser (v : Service Obj) (user : UserId) : Act Scene Error Unit := do
  Cache.invalidateShared user
  let _ ← Service.inFreshSession (v.check user warmupAbility .root)

def warmEach (v : Service Obj) : List UserId → Act Scene Error (Nat × Nat)
  | [] => return (0, 0)
  | user :: users => do
    match ← (warmUser v user).attempt with
    | .ok () =>
      let (warmed, failed) ← warmEach v users
      return (warmed + 1, failed)
    | .error e =>
      Scene.tell (World.count fun m => { m with warmFailures := m.warmFailures + 1 })
      Scene.log (.warmFailed user e)
      let (warmed, failed) ← warmEach v users
      return (warmed, failed + 1)

/-- Drops each user and loads its snapshot into the shared tiers; a failure stops nothing. -/
def warmCache (v : Service Obj) (users : List UserId) : Act Scene Error WarmStats := do
  let (warmed, failed) ← warmEach v users
  Scene.tell (World.count fun m => { m with warmSamples := m.warmSamples + 1 })
  Scene.log (.warmFinished users.length warmed failed)
  return ⟨users.length, warmed, failed⟩

end Operations

end Clearance
