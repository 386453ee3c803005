import Clearance.KeyValue.Store
import Clearance.Object
import Clearance.Observe.Event
import Clearance.Observe.Metrics
import Clearance.Permission.Snapshot
import Clearance.Act

/-! The surroundings of the engine: the stores that processes share, how they fail, and what has
been logged and counted. -/
namespace Clearance

inductive Call where
  | getContext
  | findContext
  | createContext
  | loadAssignments
  | getKey
  | setKey
  | deleteKey
  deriving DecidableEq

/-- How the stores misbehave. Requests of one kind are numbered from zero. -/
structure Disruption where
  /-- The failure that meets a request before it reaches its store. -/
  refusal : Call → Nat → Option StorageError
  /-- Whether a search for an owner sees nothing, by the number of searches that reached the store
  before; another process is about to store the context. -/
  unseen : Nat → Bool
  /-- What the next creation yields instead of storing anything. -/
  imposed : Option Record

def Disruption.none : Disruption := ⟨fun _ _ => Option.none, fun _ => false, Option.none⟩

structure World where
  contexts : ContextStore
  assignments : AssignmentStore
  keyValues : KeyValueStore
  disruption : Disruption
  /-- The requests so far, the latest first. -/
  calls : List Call
  /-- How many searches for an owner have reached the store. -/
  searches : Nat
  events : Array Event
  metrics : Metrics

namespace World

/-- Stores that hold nothing but these contexts. -/
def ofContexts (contexts : ContextStore) : World :=
  ⟨contexts, .empty, .empty, .none, [], 0, #[], {}⟩

def new : World := ofContexts .new

def callCount (w : World) (c : Call) : Nat := w.calls.count c

def request {α : Type} (c : Call) (answer : World → Except StorageError α × World) :
    Act World StorageError α := .ofFun fun w =>
  let refusal := w.disruption.refusal c (w.callCount c)
  let w := { w with calls := c :: w.calls }
  match refusal with
  | some e => (.error e, w)
  | none => answer w

def getContext (id : ContextId) : Act World StorageError (Option Record) :=
  request .getContext fun w => (.ok (w.contexts.get id), w)

def findContext (o : Owner) : Act World StorageError (Option Record) :=
  request .findContext fun w =>
    let found := if w.disruption.unseen w.searches then none else w.contexts.find o
    (.ok found, { w with searches := w.searches + 1 })

def createContext (d : Draft) : Act World StorageError Record :=
  request .createContext fun w =>
    match w.disruption.imposed with
    | some r => (.ok r, { w with disruption := { w.disruption with imposed := none } })
    | none =>
      match w.contexts.create d with
      | .ok (r, contexts) => (.ok r, { w with contexts })
      | .error e => (.error e, w)

def loadAssignments (user : UserId) : Act World StorageError (List Row) :=
  request .loadAssignments fun w => (w.assignments.load user, w)

def getKey (key : String) : Act World StorageError (Option ByteArray) :=
  request .getKey fun w => (.ok (w.keyValues.get key), w)

def setKey (key : String) (value : ByteArray) (ttl : Nat) : Act World StorageError Unit :=
  request .setKey fun w =>
    match w.keyValues.set key value ttl with
    | .ok keyValues => (.ok (), { w with keyValues })
    | .error e => (.error e, w)

def deleteKey (key : String) : Act World StorageError Unit :=
  request .deleteKey fun w => (.ok (), { w with keyValues := w.keyValues.delete key })

def log (e : Event) (w : World) : World := { w with events := w.events.push e }

def count (f : Metrics → Metrics) (w : World) : World := { w with metrics := f w.metrics }

def refuseNext (c : Call) (n : Nat) (e : StorageError) (w : World) : World :=
  let made := w.callCount c
  let refusal c' k :=
    if c' = c then if made ≤ k ∧ k < made + n then some e else none
    else w.disruption.refusal c' k
  { w with disruption := { w.disruption with refusal } }

def hideNext (n : Nat) (w : World) : World :=
  let made := w.searches
  { w with disruption := { w.disruption with unseen := fun k => made ≤ k && k < made + n } }

def imposeNext (r : Record) (w : World) : World :=
  { w with disruption := { w.disruption with imposed := some r } }

/-- Loads all that a user holds; loads that succeed are counted. -/
def loadSnapshot (user : UserId) : Act World Error Snapshot := do
  let rows ← (loadAssignments user).mapError .storage
  let s := Snapshot.ofRows rows
  modify (·.count fun m => { m with snapshotLoads := m.snapshotLoads + 1 })
  modify (·.log (.snapshotLoaded user rows.length s.size))
  return s

end World

end Clearance
