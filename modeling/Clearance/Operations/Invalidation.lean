import Clearance.Session

/-! Dropping users from the shared tiers of the cache. -/
namespace Clearance.Operations

def invalidateAllLevels (user : UserId) : Act Scene Error Unit := do
  Cache.invalidateShared user
  Scene.log (.invalidated user)

/-- Drops each user; yields how many were dropped and the first failure. -/
def invalidateEach : List UserId → Act Scene Error (Nat × Option Error)
  | [] => return (0, none)
  | user :: users => do
    match ← (invalidateAllLevels user).attempt with
    | .ok () =>
      let (n, failure) ← invalidateEach users
      return (n + 1, failure)
    | .error e =>
      Scene.log (.invalidationFailed user e)
      let (n, _) ← invalidateEach users
      return (n, some e)

/-- Drops every user, also after a failure, and then reports the first failure. -/
def invalidateBatch (users : List UserId) : Act Scene Error Nat := do
  let (n, failure) ← invalidateEach users
  Scene.log (.batchInvalidated users.length n)
  match failure with
  | some e => throw e
  | none => return n

end Clearance.Operations
