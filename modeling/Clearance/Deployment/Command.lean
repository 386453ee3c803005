import Clearance.Deployment.Basic

/-! What can be asked of a deployment, and what it answers. -/
namespace Clearance

inductive SubjectRef (Obj : Type) where
  | root
  | rootContext
  | object (o : Obj)
  | kind (k : Kind)
  /-- The context of a record, which has to be valid. -/
  | record (r : Record)
  /-- A context that was saved under this name. -/
  | saved (name : String)

/-- Commands on the shared stores; those that disturb them come first. -/
inductive StoreCommand where
  | refuse (c : Call) (n : Nat) (e : StorageError)
  | hide (n : Nat)
  | impose (r : Record)
  | insertRecord (r : Record)
  | getRecord (id : ContextId)
  | findRecord (o : Owner)
  | createRecord (d : Draft)
  | countRecords
  | upsertRole (role : RoleId) (name : String)
  | grant (role : RoleId) (permission : String)
  | ungrant (role : RoleId) (permission : String)
  | assign (user : UserId) (role : RoleId) (context : ContextId)
  | unassign (user : UserId) (role : RoleId) (context : ContextId)
  | usersWithRole (role : RoleId)
  | loadRows (user : UserId)
  | setKey (key : String) (value : ByteArray) (ttl : Nat)
  | getKey (key : String)
  | deleteKey (key : String)
  | hasKey (key : String)
  | keyTtl (key : String)

inductive SessionCommand (Obj : Type) where
  | check (user : UserId) (ability : String) (subject : SubjectRef Obj)
  | authorize (user : UserId) (ability : String) (subject : SubjectRef Obj)
  | hasRole (user : UserId) (role : String) (subject : SubjectRef Obj)
  | isSuperAdmin (user : UserId)
  | snapshot (user : UserId)
  | invalidate (user : UserId)
  | actAsSuperAdmin (user : UserId)

inductive ResolveCommand (Obj : Type) where
  | resolve (subject : SubjectRef Obj)
  | lookUp (o : Owner)
  | root

/-- Who resolves: a process or a guide. -/
inductive ResolvedBy where
  | process (i : Nat)
  | guide (name : String)

/-- Commands on the cache of a process together with a first tier. -/
inductive CacheCommand where
  | lookUp (user : UserId)
  | put (user : UserId) (rows : List Row) (ttl : Nat)
  | invalidate (user : UserId)

inductive CounterCommand where
  | read
  | add (delta : Counters)
  | take
  | hitRatio

inductive ProcessCommand (Obj : Type) where
  | invalidateShared (user : UserId)
  | info
  | evaluate (user : UserId) (ability : String) (subject : SubjectRef Obj)
  | hasPolicy (k : Kind)
  | warm (users : List UserId)
  | checkBatch (user : UserId) (abilities : List String) (subject : SubjectRef Obj)
  | invalidateAll (user : UserId)
  | invalidateBatch (users : List UserId)
  | report
  | persist
  | flush (period span : Nat)
  | count (c : CounterCommand)

inductive Command (Obj : Type) where
  | store (c : StoreCommand)
  | loadSnapshot (user : UserId)
  | state
  | openSession (name : String) (process : Nat)
  | closeSession (name : String)
  | session (name : String) (c : SessionCommand Obj)
  | makeGuide (name : String) (parents : List Kind) (maxDepth : Nat)
  | resolve (via : ResolvedBy) (c : ResolveCommand Obj) (saveAs : Option String)
  | contains (a b : String)
  | cache (process : Nat) (holder : String) (c : CacheCommand)
  | holding (holder : String) (user : UserId)
  | process (i : Nat) (c : ProcessCommand Obj)

inductive Answer where
  | nothing
  | flag (b : Bool)
  | number (n : Option Nat)
  | ids (l : List Int64)
  | record (r : Option Record)
  | rows (l : List Row)
  | bytes (b : Option ByteArray)
  | context (c : Context)
  | snapshot (p : Snapshot)
  | served (r : Option (Snapshot × Tier))
  | response (r : Option Response)
  /-- Whether something is in a collection, and the size of the collection. -/
  | membership (holds : Bool) (size : Nat)
  | warmed (s : WarmStats)
  | batch (b : BatchAnswers)
  | report (r : MetricsReport)
  | counters (c : Counters)
  | ratio (x : Float)
  | info (cache : CacheConfig) (operations : OperationsConfig)
  | state (contexts loads : Nat) (counters : List (Option Counters))

end Clearance
