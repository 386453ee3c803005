import Clearance.Engine
import Clearance.Operations.Batch
import Clearance.Operations.Invalidation
import Clearance.Operations.Report
import Clearance.Operations.Warming

/-! Several processes over the same stores, with the sessions and the contexts that their users keep
under names. -/
namespace Clearance

/-- An engine and what it has in memory. -/
structure Process (Obj : Type) where
  engine : Engine Obj
  root : Option Context
  shared : SortedMap String Snapshot
  counters : Counters

namespace Process

variable {Obj : Type}

def start (e : Engine Obj) : Process Obj := ⟨e, none, .empty, {}⟩

/-- What a session of the process sees that holds these snapshots. -/
def scene (p : Process Obj) (w : World) (held : Held) : Scene :=
  ⟨⟨w, p.root⟩, p.shared, p.counters, held⟩

/-- The process after a session has left the scene like this. -/
def after (p : Process Obj) (s : Scene) : Process Obj :=
  { p with root := s.root, shared := s.shared, counters := s.counters }

end Process

inductive EngineSource where
  /-- Settings, if they could be decoded. -/
  | settings (s : Option Settings)
  | parts (cache : CacheConfig) (maxDepth : Nat) (operations : OperationsConfig)

structure EngineSpec (Obj : Type) where
  parents : List Kind
  policies : List (Kind × Policy Obj)
  source : EngineSource

/-- Why an engine could not be made. -/
inductive SetupError where
  | policy (e : Error)
  | undecodable
  | engine (e : EngineError)

def EngineSpec.build {Obj : Type} (s : EngineSpec Obj) :
    Except SetupError (Engine Obj × List Event) := do
  let parents := ParentRegistry.ofList s.parents
  let policies ← (PolicyRegistry.ofList s.policies).mapError .policy
  match s.source with
  | .parts cache maxDepth operations =>
    let v : Service Obj := ⟨⟨parents, maxDepth⟩, policies, cache⟩
    return (.withParts v operations, [v.builtEvent])
  | .settings none => throw .undecodable
  | .settings (some settings) =>
    let e ← (Engine.ofSettings settings parents policies).mapError .engine
    return (e, [e.service.builtEvent, Engine.readyEvent settings])

/-- A session by the number of its process. -/
structure Session where
  process : Nat
  held : Held

/-- A way to contexts apart from any process, and the root once it has been read. -/
structure Guide where
  resolver : Resolver
  root : Option Context

structure Deployment (Obj : Type) where
  world : World
  /-- A process whose engine could not be made keeps its place. -/
  processes : List (Option (Process Obj))
  sessions : SortedMap String Session
  /-- First tiers apart from any session. -/
  holders : SortedMap String Held
  guides : SortedMap String Guide
  saved : SortedMap String Context

/-- Why a command has no answer. -/
inductive Failure where
  | storage (e : StorageError)
  | engine (e : Error)
  | batch (e : BatchError)
  | operation (e : EngineError)
  | noProcess
  | unknownName (name : String)

namespace Deployment

variable {Obj α : Type}

def addProcess (d : Deployment Obj) (s : EngineSpec Obj) :
    Deployment Obj × Option SetupError :=
  match s.build with
  | .ok (e, events) =>
    ({ d with
        processes := d.processes ++ [some (.start e)]
        world := events.foldl (fun w e => w.log e) d.world }, none)
  | .error e => ({ d with processes := d.processes ++ [none] }, some e)

def addProcesses (d : Deployment Obj) : List (EngineSpec Obj) →
    Deployment Obj × List (Option SetupError)
  | [] => (d, [])
  | s :: specs =>
    let (d, e) := d.addProcess s
    let (d, es) := d.addProcesses specs
    (d, e :: es)

/-- A deployment over these contexts, and what went wrong with each of its processes. -/
def setUp (contexts : ContextStore) (specs : List (EngineSpec Obj)) :
    Deployment Obj × List (Option SetupError) :=
  addProcesses ⟨.ofContexts contexts, [], .empty, .empty, .empty, .empty⟩ specs

def process? (d : Deployment Obj) (i : Nat) : Option (Process Obj) := d.processes[i]?.join

def onWorld (t : Act World Failure α) : Act (Deployment Obj) Failure α :=
  t.on world fun w d => { d with world := w }

/-- Runs in a process for one that holds these snapshots; `keep` puts away what is held then. -/
def runIn (i : Nat) (held : Held) (keep : Held → Deployment Obj → Deployment Obj)
    (t : Engine Obj → Act Scene Failure α) : Act (Deployment Obj) Failure α := .ofFun fun d =>
  match d.process? i with
  | none => (.error .noProcess, d)
  | some p =>
    let (r, s) := (t p.engine).runFrom (p.scene d.world held)
    (r, keep s.held { d with world := s.world, processes := d.processes.set i (some (p.after s)) })

def runInProcess (i : Nat) (t : Engine Obj → Act Scene Failure α) :
    Act (Deployment Obj) Failure α :=
  runIn i .empty (fun _ d => d) t

def runInSession (name : String) (t : Engine Obj → Act Scene Failure α) :
    Act (Deployment Obj) Failure α := do
  match (← get).sessions.get? name with
  | none => throw (.unknownName name)
  | some s =>
    runIn s.process s.held
      (fun held d => { d with sessions := d.sessions.insert name ⟨s.process, held⟩ }) t

/-- Runs in a process with a first tier that is kept under a name, empty at first. -/
def runWithHolder (i : Nat) (name : String) (t : Engine Obj → Act Scene Failure α) :
    Act (Deployment Obj) Failure α := do
  let held := ((← get).holders.get? name).getD .empty
  runIn i held (fun held d => { d with holders := d.holders.insert name held }) t

def runOnGuide (name : String) (t : Resolver → Act Atlas Error α) :
    Act (Deployment Obj) Failure α := .ofFun fun d =>
  match d.guides.get? name with
  | none => (.error (.unknownName name), d)
  | some g =>
    let (r, s) := (t g.resolver).runFrom ⟨d.world, g.root⟩
    (r.mapError .engine,
      { d with world := s.world, guides := d.guides.insert name { g with root := s.root } })

end Deployment

end Clearance
