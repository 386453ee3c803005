import Clearance.Proofs.Condition
import Clearance.Session

/-! What sessions are made of. A property of computations that survives sequencing holds of every
look-up of a user's snapshot once it holds of what is done with the entries of that user, and of
every check once it holds of resolving the subject, too. -/
namespace Clearance

namespace Scene

variable {ε : Type}

def heldOf (u : UserId) : Act Scene ε (Option Snapshot) := .ofFun fun s => (.ok (s.held.get? u), s)

def sharedOf (u : UserId) : Act Scene ε (Option Snapshot) :=
  .ofFun fun s => (.ok (s.shared.get? (sharedKey u)), s)

theorem onAtlas_bind {α β : Type} (t : Act Atlas ε α) (f : α → Act Atlas ε β) :
    onAtlas (t >>= f) = onAtlas t >>= fun a => onAtlas (f a) := by
  apply Act.on_bind
  · exact fun _ _ => rfl
  · exact fun _ _ _ => rfl

theorem onWorld_bind {α β : Type} (t : Act World ε α) (f : α → Act World ε β) :
    onWorld (t >>= f) = onWorld t >>= fun a => onWorld (f a) := by
  have hatlas : Atlas.onWorld (t >>= f) = Atlas.onWorld t >>= fun a => Atlas.onWorld (f a) := by
    apply Act.on_bind
    · exact fun _ _ => rfl
    · exact fun _ _ _ => rfl
  rw [onWorld, hatlas, onAtlas_bind]
  rfl

theorem onWorld_loadSnapshot (u : UserId) : onWorld (World.loadSnapshot u) = (do
    let rows ← ask (World.loadAssignments u)
    tell (World.count fun m => { m with snapshotLoads := m.snapshotLoads + 1 })
    log (.snapshotLoaded u rows.length (Snapshot.ofRows rows).size)
    return Snapshot.ofRows rows) := by
  simp only [World.loadSnapshot, onWorld_bind]
  rfl

end Scene

namespace Cache

/-- A look-up asks for no entry but those of the user, tier by tier. -/
theorem lookUp_eq (c : CacheConfig) (u : UserId) :
    lookUp c u = Scene.heldOf u >>= fun
      | some p => countHit .request >>= fun _ => pure (some (p, .request))
      | none => Scene.sharedOf u >>= fun
        | some p => do
          Scene.hold u p
          countHit .shared
          Scene.log (.servedFromShared u)
          return some (p, .shared)
        | none => lookUpPersistent c u := by
  funext s
  have hget : (get : Act Scene Error Scene).runFrom s = (.ok s, s) := rfl
  have hheld : (Scene.heldOf u : Act Scene Error _).runFrom s = (.ok (s.held.get? u), s) := rfl
  have hshared : (Scene.sharedOf u : Act Scene Error _).runFrom s =
    (.ok (s.shared.get? (sharedKey u)), s) := rfl
  refine (Act.runFrom_bind_ok hget _).trans (Eq.trans ?_ (Act.runFrom_bind_ok hheld _).symm)
  cases s.held.get? u with
  | some p => rfl
  | none =>
    refine Eq.trans ?_ (Act.runFrom_bind_ok hshared _).symm
    cases s.shared.get? (sharedKey u) <;> rfl

/-- The property holds of all that the look-up of a user's snapshot is made of, and of sequences of
what it holds of. -/
structure Steps (c : CacheConfig) (u : UserId) (P : ∀ {α : Type}, Act Scene Error α → Prop) :
    Prop where
  ofExcept {α : Type} (r : Except Error α) : P (Act.ofExcept r)
  bind {α β : Type} {t : Act Scene Error α} {f : α → Act Scene Error β} :
    P t → (∀ a, P (f a)) → P (t >>= f)
  heldOf : P (Scene.heldOf u)
  sharedOf : P (Scene.sharedOf u)
  hold (p : Snapshot) : P (Scene.hold u p)
  share (p : Snapshot) : P (share c u p)
  getKey : P (Scene.ask (World.getKey (persistentKey u)))
  setKey (value : ByteArray) (ttl : Nat) :
    P (Scene.ask (World.setKey (persistentKey u) value ttl))
  deleteKey : P (Scene.ask (World.deleteKey (persistentKey u)))
  loadAssignments : P (Scene.ask (World.loadAssignments u))
  counters (f : Counters → Counters) : P (modify fun s => { s with counters := f s.counters })
  count (f : Metrics → Metrics) : P (Scene.tell (World.count f))
  log (e : Event) : P (Scene.log e)

namespace Steps

variable {c : CacheConfig} {u : UserId} {P : ∀ {α : Type}, Act Scene Error α → Prop}
  (h : Steps c u P)

include h

theorem pure {α : Type} (a : α) : P (pure a) := h.ofExcept (.ok a)

theorem countHit (t : Tier) : P (countHit t) := by
  refine h.bind ?_ fun _ => h.count _
  cases t with
  | request => exact h.counters fun c => { c with requestHits := c.requestHits + 1 }
  | shared => exact h.counters fun c => { c with sharedHits := c.sharedHits + 1 }
  | persistent => exact h.counters fun c => { c with persistentHits := c.persistentHits + 1 }

theorem countMiss : P countMiss :=
  h.bind (h.counters fun c => { c with misses := c.misses + 1 }) fun _ => h.count _

theorem loadSnapshot : P (Scene.onWorld (World.loadSnapshot u)) := by
  rw [Scene.onWorld_loadSnapshot]
  exact h.bind h.loadAssignments fun _ => h.bind (h.count _) fun _ => h.bind (h.log _) fun _ =>
    h.pure _

theorem lookUpPersistent : P (Cache.lookUpPersistent c u) := by
  refine h.bind h.getKey fun found => ?_
  cases found with
  | none => exact h.bind h.countMiss fun _ => h.pure _
  | some bytes =>
    cases hp : Snapshot.ofBytes? bytes with
    | some p =>
      simp only [hp]
      refine h.bind (h.share p) fun _ => h.bind (h.hold p) fun _ => ?_
      exact h.bind (h.countHit _) fun _ => h.bind (h.log _) fun _ => h.pure _
    | none =>
      simp only [hp]
      refine h.bind (h.log _) fun _ => h.bind h.deleteKey fun _ => ?_
      exact h.bind h.countMiss fun _ => h.pure _

theorem lookUp : P (Cache.lookUp c u) := by
  rw [lookUp_eq]
  refine h.bind h.heldOf fun held => ?_
  cases held with
  | some p => exact h.bind (h.countHit _) fun _ => h.pure _
  | none =>
    refine h.bind h.sharedOf fun shared => ?_
    cases shared with
    | some p =>
      refine h.bind (h.hold p) fun _ => h.bind (h.countHit _) fun _ => ?_
      exact h.bind (h.log _) fun _ => h.pure _
    | none => exact h.lookUpPersistent

theorem put (p : Snapshot) (ttl : Nat) : P (Cache.put c u p ttl) :=
  h.bind (h.setKey _ _) fun _ => h.bind (h.share p) fun _ => h.hold p

end Steps

theorem Steps.snapshot {Obj : Type} {v : Service Obj} {u : UserId}
    {P : ∀ {α : Type}, Act Scene Error α → Prop} (h : Steps v.cache u P) : P (v.snapshot u) := by
  refine h.bind h.lookUp fun found => ?_
  cases found with
  | some x => exact h.pure _
  | none => exact h.bind h.loadSnapshot fun p => h.bind (h.put p _) fun _ => h.pure p

end Cache

namespace Service

variable {Obj : Type} {v : Service Obj} {u : UserId}
  {P : ∀ {α : Type}, Act Scene Error α → Prop}

/-- The property holds of what decisions about a user are made of, once contexts are resolved, and
of sequences of what it holds of. -/
structure Stages (v : Service Obj) (u : UserId) (P : ∀ {α : Type}, Act Scene Error α → Prop) :
    Prop where
  ofExcept {α : Type} (r : Except Error α) : P (Act.ofExcept r)
  bind {α β : Type} {t : Act Scene Error α} {f : α → Act Scene Error β} :
    P t → (∀ a, P (f a)) → P (t >>= f)
  snapshot : P (v.snapshot u)
  log (e : Event) : P (Scene.log e)

namespace Stages

variable (h : Stages v u P)

include h

theorem pure {α : Type} (a : α) : P (pure a) := h.ofExcept (.ok a)

theorem throw {α : Type} (e : Error) : P (throw e : Act Scene Error α) := h.ofExcept (.error e)

theorem isSuperAdmin : P (v.isSuperAdmin u) := h.bind h.snapshot fun _ => h.pure _

variable [DomainObject Obj] {subject : Subject Obj} (hresolve : P (v.resolve subject))

include hresolve

theorem checkRoles (ability : String) : P (v.checkRoles u ability subject) := by
  refine h.bind h.snapshot fun p => ?_
  split
  · exact h.bind (h.log _) fun _ => h.pure true
  · exact h.bind hresolve fun c => h.bind (h.log _) fun _ => h.pure _

theorem check (ability : String) : P (v.check u ability subject) := by
  unfold Service.check
  split
  · exact h.bind (h.log _) fun _ => h.pure true
  · exact h.bind (h.log _) fun _ => h.pure false
  · exact h.throw _
  · exact h.checkRoles hresolve ability

theorem authorize (ability : String) : P (v.authorize u ability subject) := by
  refine h.bind (h.check hresolve ability) fun allowed => ?_
  split
  · exact h.throw _
  · exact h.pure _

theorem hasRole (name : String) : P (v.hasRole u name subject) :=
  h.bind hresolve fun _ => h.bind h.snapshot fun _ => h.pure _

end Stages

end Service

theorem Cache.Steps.stages {Obj : Type} {v : Service Obj} {u : UserId}
    {P : ∀ {α : Type}, Act Scene Error α → Prop} (h : Cache.Steps v.cache u P) :
    Service.Stages v u P where
  ofExcept := h.ofExcept
  bind := h.bind
  snapshot := h.snapshot
  log := h.log

end Clearance
