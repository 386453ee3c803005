import Clearance.Deployment.Command

/-! Carrying out commands. -/
namespace Clearance

namespace StoreCommand

def onAssignments (f : AssignmentStore → Except StorageError AssignmentStore) :
    Act World StorageError Answer := .ofFun fun w =>
  match f w.assignments with
  | .ok assignments => (.ok .nothing, { w with assignments })
  | .error e => (.error e, w)

def disturb (f : World → World) : Act World StorageError Answer := do
  modify f
  return .nothing

def perform : StoreCommand → Act World StorageError Answer
  | refuse c n e => disturb (.refuseNext c n e)
  | hide n => disturb (.hideNext n)
  | impose r => disturb (.imposeNext r)
  | insertRecord r => do
    modify fun w => { w with contexts := w.contexts.insert r }
    return .number (some (← get).contexts.size)
  | getRecord id => return .record (← World.getContext id)
  | findRecord o => return .record (← World.findContext o)
  | createRecord d => return .record (some (← World.createContext d))
  | countRecords => return .number (some (← get).contexts.size)
  | upsertRole role name => onAssignments fun s => .ok (s.upsertRole role name)
  | grant role permission => onAssignments (·.grantPermission role permission)
  | ungrant role permission => onAssignments (·.revokePermission role permission)
  | assign user role c => onAssignments (·.assignRole user role c)
  | unassign user role c => onAssignments fun s => .ok (s.revokeRole user role c)
  | usersWithRole role => return .ids ((← get).assignments.usersWithRole role)
  | loadRows user => return .rows (← World.loadAssignments user)
  | setKey key value ttl => do
    World.setKey key value ttl
    return .nothing
  | getKey key => return .bytes (← World.getKey key)
  | deleteKey key => do
    World.deleteKey key
    return .nothing
  | hasKey key => return .flag ((← get).keyValues.contains key)
  | keyTtl key => return .number ((← get).keyValues.ttl? key)

end StoreCommand

def CounterCommand.perform (c : Counters) : CounterCommand → Answer × Counters
  | read => (.counters c, c)
  | add delta => (.nothing, c + delta)
  | take => (.counters c, {})
  | hitRatio => (.ratio c.hitRatio, c)

variable {Obj : Type} [DomainObject Obj]

namespace SubjectRef

def subject (d : Deployment Obj) : SubjectRef Obj → Except Failure (Subject Obj)
  | root => .ok .root
  | rootContext => .ok (.context .root)
  | object o => .ok (.object o)
  | kind k => .ok (.kind k)
  | record r => ((Context.ofRecord r).map .context).mapError .engine
  | saved name =>
    match d.saved.get? name with
    | some c => .ok (.context c)
    | none => .error (.unknownName name)

def find (r : SubjectRef Obj) : Act (Deployment Obj) Failure (Subject Obj) := do
  .ofExcept (r.subject (← get))

end SubjectRef

namespace SessionCommand

open Deployment in
def perform (name : String) : SessionCommand Obj → Act (Deployment Obj) Failure Answer
  | check user ability subject => do
    let subject ← subject.find
    runInSession name fun e =>
      .flag <$> (e.service.check user ability subject).mapError .engine
  | authorize user ability subject => do
    let subject ← subject.find
    runInSession name fun e =>
      (fun _ => .nothing) <$> (e.service.authorize user ability subject).mapError .engine
  | hasRole user role subject => do
    let subject ← subject.find
    runInSession name fun e =>
      .flag <$> (e.service.hasRole user role subject).mapError .engine
  | isSuperAdmin user =>
    runInSession name fun e => .flag <$> (e.service.isSuperAdmin user).mapError .engine
  | snapshot user =>
    runInSession name fun e => .snapshot <$> (e.service.snapshot user).mapError .engine
  | invalidate user =>
    runInSession name fun _ => (fun _ => .nothing) <$> (Cache.invalidate user).mapError .engine
  | actAsSuperAdmin user =>
    runInSession name fun e => (fun _ => .nothing) <$>
      match e.environment with
      | some environment => (e.actAsSuperAdmin environment user).mapError .operation
      | none => (e.service.actAsSuperAdmin user).mapError .engine

end SessionCommand

namespace ResolveCommand

def toAct (c : ResolveCommand Obj) :
    Act (Deployment Obj) Failure (Resolver → Act Atlas Error Context) := do
  match c with
  | resolve subject =>
    let subject ← subject.find
    return fun r => r.resolve subject
  | lookUp o => return fun _ => Resolver.lookUp o
  | root => return fun _ => Resolver.root

def perform (c : ResolveCommand Obj) (via : ResolvedBy) :
    Act (Deployment Obj) Failure Context := do
  let act ← c.toAct
  match via with
  | .process i =>
    Deployment.runInProcess i fun e =>
      (Scene.onAtlas (act e.service.resolver)).mapError .engine
  | .guide name => Deployment.runOnGuide name act

end ResolveCommand

def CacheCommand.perform (e : Engine Obj) : CacheCommand → Act Scene Error Answer
  | lookUp user => return .served (← Cache.lookUp e.service.cache user)
  | put user rows ttl => do
    let p := Snapshot.ofRows rows
    Cache.put e.service.cache user p ttl
    return .snapshot p
  | invalidate user => do
    Cache.invalidate user
    return .nothing

namespace ProcessCommand

open Operations in
def perform (i : Nat) : ProcessCommand Obj → Act (Deployment Obj) Failure Answer
  | invalidateShared user =>
    Deployment.runInProcess i fun _ =>
      (fun _ => .nothing) <$> (Cache.invalidateShared user).mapError .engine
  | info => Deployment.runInProcess i fun e => return .info e.service.cache e.operations
  | evaluate user ability subject => do
    let subject ← subject.find
    Deployment.runInProcess i fun e =>
      return .response (e.service.policies.evaluate user ability subject)
  | hasPolicy k =>
    Deployment.runInProcess i fun e =>
      return .membership (e.service.policies.hasPolicyFor k) e.service.policies.size
  | warm users =>
    Deployment.runInProcess i fun e =>
      .warmed <$> (warmCache e.service users).mapError .engine
  | checkBatch user abilities subject => do
    let subject ← subject.find
    Deployment.runInProcess i fun e =>
      .batch <$> (Operations.checkBatch e.service user abilities subject).mapError .batch
  | invalidateAll user =>
    Deployment.runInProcess i fun _ =>
      (fun _ => .nothing) <$> (invalidateAllLevels user).mapError .engine
  | invalidateBatch users =>
    Deployment.runInProcess i fun _ =>
      (fun n => .number (some n)) <$> (Operations.invalidateBatch users).mapError .engine
  | report =>
    Deployment.runInProcess i fun e =>
      .report <$> (metricsReport e.service.cache e.operations).mapError .engine
  | persist =>
    Deployment.runInProcess i fun e => .counters <$> (persistMetrics e.operations).mapError .engine
  | flush period span =>
    Deployment.runInProcess i fun e =>
      .flag <$> (flushFor e.operations period span).mapError .engine
  | count c =>
    Deployment.runInProcess i fun _ => do
      let s ← get
      let (answer, counters) := c.perform s.counters
      set { s with counters }
      return answer

end ProcessCommand

namespace Deployment

def save (name : Option String) (c : Context) (d : Deployment Obj) : Deployment Obj :=
  match name with
  | none => d
  | some name => { d with saved := d.saved.insert name c }

def savedContext (name : String) : Act (Deployment Obj) Failure Context := do
  match (← get).saved.get? name with
  | some c => return c
  | none => throw (.unknownName name)

def perform : Command Obj → Act (Deployment Obj) Failure Answer
  | .store c => onWorld (c.perform.mapError .storage)
  | .loadSnapshot user =>
    onWorld (.snapshot <$> (World.loadSnapshot user).mapError .engine)
  | .state => do
    let d ← get
    return .state d.world.contexts.size (d.world.callCount .loadAssignments)
      (d.processes.map (·.map (·.counters)))
  | .openSession name i => do
    match (← get).process? i with
    | none => throw .noProcess
    | some _ =>
      modify fun d => { d with sessions := d.sessions.insert name ⟨i, .empty⟩ }
      return .nothing
  | .closeSession name => do
    let d ← get
    set { d with sessions := d.sessions.erase name }
    return .flag (d.sessions.contains name)
  | .session name c => c.perform name
  | .makeGuide name parents maxDepth => do
    let r : Resolver := ⟨.ofList parents, maxDepth⟩
    modify fun d => { d with guides := d.guides.insert name ⟨r, none⟩ }
    return .number (some r.parents.size)
  | .resolve via c saveAs => do
    let c ← c.perform via
    modify (save saveAs c)
    return .context c
  | .contains a b => return .flag ((← savedContext a).contains (← savedContext b))
  | .cache i holder c => runWithHolder i holder fun e => (c.perform e).mapError .engine
  | .holding holder user => do
    let held := ((← get).holders.get? holder).getD .empty
    return .membership (held.contains user) held.size
  | .process i c => c.perform i

/-- One command: its outcome and the events it logged. -/
def step (d : Deployment Obj) (c : Command Obj) :
    (Except Failure Answer × List Event) × Deployment Obj :=
  let logged := d.world.events.size
  let (r, d) := (perform c).runFrom d
  ((r, (d.world.events.extract logged).toList), d)

def steps : List (Command Obj) → Deployment Obj →
    List (Except Failure Answer × List Event) × Deployment Obj
  | [], d => ([], d)
  | c :: cs, d =>
    let (r, d) := d.step c
    let (rs, d) := steps cs d
    (r :: rs, d)

end Deployment

end Clearance
