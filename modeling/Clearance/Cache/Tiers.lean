import Clearance.Cache.Keys
import Clearance.Permission.Codec
import Clearance.Resolver

/-! The cache of snapshots. The first tier belongs to one session, the second is memory that the
sessions of a process share, the third is the key-value store that processes share. A hit is copied
into the tiers above it; a new snapshot is written to the third tier before the others. -/
namespace Clearance

structure CacheConfig where
  persistentTtl : Nat := 3600
  sharedEnabled : Bool := true
  sharedTtl : Nat := 60
  sharedCapacity : Nat := 10000
  deriving DecidableEq

def CacheConfig.sharedKeeps (c : CacheConfig) : Bool :=
  c.sharedEnabled && 0 < c.sharedTtl && 0 < c.sharedCapacity

/-- The first tier: what one session holds. -/
abbrev Held := SortedMap UserId Snapshot

/-- What a session sees and changes. -/
structure Scene extends Atlas where
  shared : SortedMap String Snapshot
  counters : Counters
  held : Held

namespace Scene

variable {ε α : Type}

def onAtlas (t : Act Atlas ε α) : Act Scene ε α :=
  t.on toAtlas fun a s => { s with toAtlas := a }

def onWorld (t : Act World ε α) : Act Scene ε α := onAtlas (Atlas.onWorld t)

def ask (t : Act World StorageError α) : Act Scene Error α := onAtlas (Atlas.ask t)

theorem runFrom_onWorld (t : Act World ε α) (s : Scene) : (onWorld t).runFrom s =
    ((t.runFrom s.world).1, { s with world := (t.runFrom s.world).2 }) := rfl

theorem runFrom_ask (t : Act World StorageError α) (s : Scene) : (ask t).runFrom s =
    ((t.runFrom s.world).1.mapError .storage, { s with world := (t.runFrom s.world).2 }) := rfl

def tell (f : World → World) : Act Scene ε Unit := modify fun s => { s with world := f s.world }

def log (e : Event) : Act Scene ε Unit := tell (World.log e)

def hold (user : UserId) (p : Snapshot) : Act Scene ε Unit :=
  modify fun s => { s with held := s.held.insert user p }

def letGo (user : UserId) : Act Scene ε Unit :=
  modify fun s => { s with held := s.held.erase user }

end Scene

namespace Cache

variable {ε : Type}

def countHit (t : Tier) : Act Scene ε Unit := do
  modify fun s =>
    { s with counters := match t with
      | .request => { s.counters with requestHits := s.counters.requestHits + 1 }
      | .shared => { s.counters with sharedHits := s.counters.sharedHits + 1 }
      | .persistent => { s.counters with persistentHits := s.counters.persistentHits + 1 } }
  Scene.tell (World.count fun m => m.addHit t)

def countMiss : Act Scene ε Unit := do
  modify fun s => { s with counters := { s.counters with misses := s.counters.misses + 1 } }
  Scene.tell (World.count fun m => { m with misses := m.misses + 1 })

def countInvalidation : Act Scene ε Unit := do
  modify fun s =>
    { s with counters := { s.counters with invalidations := s.counters.invalidations + 1 } }
  Scene.tell (World.count fun m => { m with invalidations := m.invalidations + 1 })

def share (c : CacheConfig) (user : UserId) (p : Snapshot) : Act Scene ε Unit :=
  modify fun s =>
    if c.sharedKeeps then { s with shared := s.shared.insert (sharedKey user) p } else s

def unshare (user : UserId) : Act Scene ε Unit :=
  modify fun s => { s with shared := s.shared.erase (sharedKey user) }

/-- Looks in the third tier; an entry that cannot be decoded is deleted and not found. -/
def lookUpPersistent (c : CacheConfig) (user : UserId) :
    Act Scene Error (Option (Snapshot × Tier)) := do
  match ← Scene.ask (World.getKey (persistentKey user)) with
  | none =>
    countMiss
    return none
  | some bytes =>
    match Snapshot.ofBytes? bytes with
    | some p =>
      share c user p
      Scene.hold user p
      countHit .persistent
      Scene.log (.servedFromPersistent user)
      return some (p, .persistent)
    | none =>
      Scene.log (.undecodableDropped user)
      Scene.ask (World.deleteKey (persistentKey user))
      countMiss
      return none

def lookUp (c : CacheConfig) (user : UserId) : Act Scene Error (Option (Snapshot × Tier)) := do
  let s ← get
  match s.held.get? user with
  | some p =>
    countHit .request
    return some (p, .request)
  | none =>
    match s.shared.get? (sharedKey user) with
    | some p =>
      Scene.hold user p
      countHit .shared
      Scene.log (.servedFromShared user)
      return some (p, .shared)
    | none => lookUpPersistent c user

/-- Puts a snapshot into every tier, or into none if the third one fails. -/
def put (c : CacheConfig) (user : UserId) (p : Snapshot) (ttl : Nat) : Act Scene Error Unit := do
  Scene.ask (World.setKey (persistentKey user) p.toBytes ttl)
  share c user p
  Scene.hold user p

/-- Drops a user from the second and third tier. -/
def invalidateShared (user : UserId) : Act Scene Error Unit := do
  unshare user
  Scene.ask (World.deleteKey (persistentKey user))
  countInvalidation

def invalidate (user : UserId) : Act Scene Error Unit := do
  Scene.letGo user
  invalidateShared user

end Cache

end Clearance
