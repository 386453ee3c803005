import Clearance.World

/-! From subjects to contexts. An object that has no context yet gets one below the context of its
declared parent, which is found or made in the same way. -/
namespace Clearance

structure Resolver where
  parents : ParentRegistry
  /-- How many parents are followed from an object at most. -/
  maxDepth : Nat

/-- The shared surroundings and the root, once it has been read. -/
structure Atlas where
  world : World
  root : Option Context

namespace Atlas

def onWorld {ε α : Type} (t : Act World ε α) : Act Atlas ε α :=
  t.on world fun w s => { s with world := w }

def ask {α : Type} (t : Act World StorageError α) : Act Atlas Error α :=
  onWorld (t.mapError .storage)

def log (e : Event) : Act Atlas Error Unit := modify fun s => { s with world := s.world.log e }

end Atlas

namespace Resolver

variable {Obj : Type} [DomainObject Obj]

def defaultMaxDepth : Nat := 25

/-- The root context; it is read from the store until that has succeeded once. -/
def root : Act Atlas Error Context := do
  match (← get).root with
  | some c => return c
  | none =>
    match ← Atlas.ask (World.getContext rootId) with
    | none => throw (.configuration s!"root context {Id.text rootId} does not exist")
    | some r =>
      let c ← Act.ofExcept (Context.ofRecord r)
      modify fun s => { s with root := some c }
      return c

/-- The context of an owner, which must be stored. -/
def lookUp (o : Owner) : Act Atlas Error Context := do
  match ← Atlas.ask (World.findContext o) with
  | some r => Act.ofExcept (Context.ofRecord r)
  | none => throw (.contextNotFound o.level o.instanceId)

/-- The record of a new context, or the one that is there where another process came first. -/
def createOrFind (d : Draft) : Act Atlas Error Record := do
  match ← (Atlas.onWorld (World.createContext d)).attempt with
  | .ok r => return r
  | .error (.contextConflict ..) =>
    match ← Atlas.ask (World.findContext d.owner) with
    | some r => return r
    | none => throw (.contextNotFound d.owner.level d.owner.instanceId)
  | .error e => throw (.storage e)

def createChild (parent : Context) (o : Owner) : Act Atlas Error Context := do
  let r ← createOrFind ⟨parent.id, o, parent.record.depth + 1, parent.path⟩
  let c ← Act.ofExcept (Context.ofRecord r)
  if c.record.parent ≠ some parent.id then throw (.corruptPath c.id c.path)
  Atlas.log (.contextCreated c.id o.level o.instanceId c.path)
  return c

/-- The context of an object. `limit` is the bound that the failure names and `left` how many
parents may still be followed. -/
def resolveWithin (parents : ParentRegistry) (limit : Nat) : Nat → Obj → Act Atlas Error Context
  | left, o => do
    match ← Atlas.ask (World.findContext (DomainObject.owner o)) with
    | some r => Act.ofExcept (Context.ofRecord r)
    | none =>
      let parent ← match parents.parentOf o, left with
        | none, _ => root
        | some _, 0 => throw (.beyond limit)
        | some p, left + 1 => resolveWithin parents limit left p
      createChild parent (DomainObject.owner o)

def resolve (r : Resolver) : Subject Obj → Act Atlas Error Context
  | .context c => pure c
  | .root | .kind _ => root
  | .object o => resolveWithin r.parents r.maxDepth r.maxDepth o

end Resolver

end Clearance
