import Clearance.Operations.Batch
import Clearance.Operations.Invalidation
import Clearance.Operations.Warming

/-! What requests to a service are made of. A property of computations that survives sequencing, the
handling of failures and sessions of their own holds of every request, for one user or for many, once
it holds of looking up a snapshot, of dropping a user and of what has nothing to do with the cache. -/
namespace Clearance

def Event.isDrop : Event → Bool
  | .undecodableDropped _ => true
  | _ => false

/-- The events of which a process exports the number. -/
def Metrics.events (m : Metrics) : Counters :=
  ⟨m.requestHits, m.sharedHits, m.persistentHits, m.misses, m.batchChecks, m.invalidations⟩

namespace Service

variable {Obj : Type} [DomainObject Obj]

/-- The property holds of what requests to the service are made of that drop nobody from the lower
tiers, and of what is made of that. -/
structure Elements (v : Service Obj) (P : ∀ {ε α : Type}, Act Scene ε α → Prop) : Prop where
  ofExcept {ε α : Type} (r : Except ε α) : P (Act.ofExcept r : Act Scene ε α)
  bind {ε α β : Type} {t : Act Scene ε α} {f : α → Act Scene ε β} :
    P t → (∀ a, P (f a)) → P (t >>= f)
  mapError {ε ε' α : Type} {t : Act Scene ε α} (g : ε → ε') : P t → P (t.mapError g)
  attempt {ε ε' α : Type} {t : Act Scene ε α} : P t → P (t.attempt : Act Scene ε' _)
  fresh {ε α : Type} {t : Act Scene ε α} : P t → P (inFreshSession t)
  snapshot (u : UserId) : P (v.snapshot u)
  resolve (subject : Subject Obj) : P (v.resolve subject)
  letGo (u : UserId) : P (Scene.letGo u : Act Scene Error Unit)
  log {ε : Type} {e : Event} : e.isDrop = false → P (Scene.log e : Act Scene ε Unit)
  /-- Something is exported that the process does not count itself, and that is no load. -/
  count {ε : Type} {f : Metrics → Metrics} :
    (∀ m, (f m).events = m.events ∧ (f m).snapshotLoads = m.snapshotLoads) →
    P (Scene.tell (World.count f) : Act Scene ε Unit)
  batch (n : Nat) : P (Operations.countBatch n)

/-- The property holds of what requests to the service are made of, whoever is dropped. -/
structure Parts (v : Service Obj) (P : ∀ {ε α : Type}, Act Scene ε α → Prop) : Prop
    extends Elements v P where
  drop (u : UserId) : P (Cache.invalidateShared u)

/-- What the service is requested to decide, to warm or to drop. -/
inductive Requested (v : Service Obj) : {ε α : Type} → Act Scene ε α → Prop
  | snapshot (u : UserId) : Requested v (v.snapshot u)
  | isSuperAdmin (u : UserId) : Requested v (v.isSuperAdmin u)
  | check (u : UserId) (ability : String) (subject : Subject Obj) :
    Requested v (v.check u ability subject)
  | authorize (u : UserId) (ability : String) (subject : Subject Obj) :
    Requested v (v.authorize u ability subject)
  | hasRole (u : UserId) (name : String) (subject : Subject Obj) :
    Requested v (v.hasRole u name subject)
  | checkBatch (u : UserId) (abilities : List String) (subject : Subject Obj) :
    Requested v (Operations.checkBatch v u abilities subject)
  | warmCache (users : List UserId) : Requested v (Operations.warmCache v users)
  | invalidate (u : UserId) : Requested v (Cache.invalidate u)
  | invalidateShared (u : UserId) : Requested v (Cache.invalidateShared u)
  | invalidateAllLevels (u : UserId) : Requested v (Operations.invalidateAllLevels u)
  | invalidateBatch (users : List UserId) : Requested v (Operations.invalidateBatch users)

section Requests

open Operations

variable {v : Service Obj} {P : ∀ {ε α : Type}, Act Scene ε α → Prop}

namespace Elements

variable (h : Elements v P)

include h

theorem pure {ε α : Type} (a : α) : P (pure a : Act Scene ε α) := h.ofExcept (.ok a)

theorem throw {ε α : Type} (e : ε) : P (throw e : Act Scene ε α) := h.ofExcept (.error e)

section Session

theorem isSuperAdmin (u : UserId) : P (v.isSuperAdmin u) := h.bind (h.snapshot u) fun _ => h.pure _

theorem checkRoles (u : UserId) (ability : String) (subject : Subject Obj) :
    P (v.checkRoles u ability subject) := by
  refine h.bind (h.snapshot u) fun p => ?_
  split
  · exact h.bind (h.log rfl) fun _ => h.pure _
  · exact h.bind (h.resolve subject) fun c => h.bind (h.log rfl) fun _ => h.pure _

theorem check (u : UserId) (ability : String) (subject : Subject Obj) :
    P (v.check u ability subject) := by
  unfold Service.check
  split
  · exact h.bind (h.log rfl) fun _ => h.pure _
  · exact h.bind (h.log rfl) fun _ => h.pure _
  · exact h.throw _
  · exact h.checkRoles u ability subject

theorem authorize (u : UserId) (ability : String) (subject : Subject Obj) :
    P (v.authorize u ability subject) := by
  refine h.bind (h.check u ability subject) fun allowed => ?_
  split
  · exact h.throw _
  · exact h.pure _

theorem hasRole (u : UserId) (name : String) (subject : Subject Obj) :
    P (v.hasRole u name subject) :=
  h.bind (h.resolve subject) fun _ => h.bind (h.snapshot u) fun _ => h.pure _

end Session

section Invalidation

variable {u : UserId} (hdrop : P (Cache.invalidateShared u))

include hdrop

theorem invalidate : P (Cache.invalidate u) := h.bind (h.letGo u) fun _ => hdrop

theorem invalidateAllLevels : P (invalidateAllLevels u) := h.bind hdrop fun _ => h.log rfl

end Invalidation

section Invalidations

variable {users : List UserId} (hdrop : ∀ u ∈ users, P (Cache.invalidateShared u))

include hdrop

theorem invalidateEach : P (invalidateEach users) := by
  induction users with
  | nil => exact h.pure _
  | cons u users ih =>
    obtain ⟨hfirst, hrest⟩ := List.forall_mem_cons.1 hdrop
    refine h.bind (h.attempt (h.invalidateAllLevels hfirst)) fun r => ?_
    split
    · exact h.bind (ih hrest) fun _ => h.pure _
    · exact h.bind (h.log rfl) fun _ => h.bind (ih hrest) fun _ => h.pure _

theorem invalidateBatch : P (invalidateBatch users) := by
  refine h.bind (h.invalidateEach hdrop) fun x => h.bind (h.log rfl) fun _ => ?_
  split
  · exact h.throw _
  · exact h.pure _

end Invalidations

section Batch

theorem checkPlain (u : UserId) (ability : String) (subject : Subject Obj) :
    P (checkPlain v u ability subject) := by
  refine h.bind (h.attempt (h.check u ability subject)) fun r => ?_
  split
  · exact h.pure _
  · exact h.pure _
  · exact h.throw _

theorem checkEach (u : UserId) (subject : Subject Obj) (abilities : List String)
    (answers : SortedMap String Bool) : P (checkEach v u subject answers abilities) := by
  induction abilities generalizing answers with
  | nil => exact h.pure _
  | cons ability abilities ih =>
    unfold Operations.checkEach
    split
    · exact ih answers
    · exact h.bind (h.checkPlain u ability subject) fun allowed => ih _

theorem checkBatch (u : UserId) (abilities : List String) (subject : Subject Obj) :
    P (checkBatch v u abilities subject) := by
  unfold Operations.checkBatch
  split
  · exact h.throw _
  · have hcheck := h.fresh (h.checkEach u subject abilities .empty)
    refine h.bind (h.mapError _ hcheck) fun answers => h.bind (h.batch _) fun _ => ?_
    exact h.bind (h.log rfl) fun _ => h.pure _

end Batch

section Warming

theorem warmUser {u : UserId} (hdrop : P (Cache.invalidateShared u)) : P (warmUser v u) :=
  h.bind hdrop fun _ => h.bind (h.fresh (h.check u warmupAbility .root)) fun _ => h.pure _

variable {users : List UserId} (hdrop : ∀ u ∈ users, P (Cache.invalidateShared u))

include hdrop

theorem warmEach : P (warmEach v users) := by
  induction users with
  | nil => exact h.pure _
  | cons u users ih =>
    obtain ⟨hfirst, hrest⟩ := List.forall_mem_cons.1 hdrop
    refine h.bind (h.attempt (h.warmUser hfirst)) fun r => ?_
    split
    · exact h.bind (ih hrest) fun _ => h.pure _
    · refine h.bind (h.count fun _ => ⟨rfl, rfl⟩) fun _ => h.bind (h.log rfl) fun _ => ?_
      exact h.bind (ih hrest) fun _ => h.pure _

theorem warmCache : P (warmCache v users) :=
  h.bind (h.warmEach hdrop) fun _ => h.bind (h.count fun _ => ⟨rfl, rfl⟩) fun _ =>
    h.bind (h.log rfl) fun _ => h.pure _

end Warming

end Elements

namespace Parts

variable (h : Parts v P)

include h

theorem invalidate (u : UserId) : P (Cache.invalidate u) := h.toElements.invalidate (h.drop u)

theorem invalidateAllLevels (u : UserId) : P (invalidateAllLevels u) :=
  h.toElements.invalidateAllLevels (h.drop u)

theorem invalidateBatch (users : List UserId) : P (invalidateBatch users) :=
  h.toElements.invalidateBatch fun u _ => h.drop u

theorem warmCache (users : List UserId) : P (warmCache v users) :=
  h.toElements.warmCache fun u _ => h.drop u

theorem requested {ε α : Type} {t : Act Scene ε α} (ht : Requested v t) : P t := by
  cases ht with
  | snapshot u => exact h.snapshot u
  | isSuperAdmin u => exact h.isSuperAdmin u
  | check u ability subject => exact h.check u ability subject
  | authorize u ability subject => exact h.authorize u ability subject
  | hasRole u name subject => exact h.hasRole u name subject
  | checkBatch u abilities subject => exact h.checkBatch u abilities subject
  | warmCache users => exact h.warmCache users
  | invalidate u => exact h.invalidate u
  | invalidateShared u => exact h.drop u
  | invalidateAllLevels u => exact h.invalidateAllLevels u
  | invalidateBatch users => exact h.invalidateBatch users

end Parts

end Requests

end Service

end Clearance
