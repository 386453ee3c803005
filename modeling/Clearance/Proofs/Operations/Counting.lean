import Clearance.Proofs.Cache.Counting
import Clearance.Proofs.Resolver.Steps

/-! Whatever a session is asked and whatever is done for many users at once is made of what is
counted and of what is not. -/
namespace Clearance

theorem World.apart_ledger : World.Apart World.ledger := ⟨fun _ _ _ => rfl, fun _ _ _ _ _ => rfl⟩

namespace Scene

def Counts {ε α : Type} (t : Act Scene ε α) : Prop := ∃ n, Counting t n

variable {ε ε' α β : Type} {t : Act Scene ε α}

theorem Quiet.counts (h : Quiet t) : Counts t := ⟨_, .quiet h⟩

theorem Counts.bind {f : α → Act Scene ε β} (ht : Counts t) (hf : ∀ a, Counts (f a)) :
    Counts (t >>= f) := by
  obtain ⟨n, hn⟩ := ht
  choose m hm using hf
  exact ⟨_, hn.bind hm⟩

theorem Counts.mapError (h : Counts t) (g : ε → ε') : Counts (t.mapError g) := by
  obtain ⟨n, hn⟩ := h
  exact ⟨n, hn.mapError g⟩

theorem Counts.attempt (h : Counts t) : Counts (t.attempt : Act Scene ε' _) := by
  obtain ⟨n, hn⟩ := h
  exact ⟨n, hn.attempt⟩

theorem Counts.fresh (h : Counts t) : Counts (Service.inFreshSession t) := by
  obtain ⟨n, hn⟩ := h
  exact ⟨_, hn.fresh⟩

theorem counts_pure (a : α) : Counts (pure a : Act Scene ε α) := Quiet.counts fun _ => rfl

theorem counts_log (e : Event) : Counts (log e : Act Scene ε Unit) := Quiet.counts fun _ => rfl

end Scene

namespace Service

open Scene

variable {Obj : Type} {v : Service Obj} {u : UserId}

theorem counts_put (c : CacheConfig) (u : UserId) (p : Snapshot) (ttl : Nat) :
    Counts (Cache.put c u p ttl) := by
  have hset := quiet_ask (World.leaves_ledger_setKey u p.toBytes ttl)
  refine hset.counts.bind fun _ => Counts.bind (Quiet.counts ?_) fun _ => Quiet.counts ?_
  · exact quiet_modify fun s => by split <;> exact ⟨rfl, rfl⟩
  · exact quiet_modify fun _ => ⟨rfl, rfl⟩

theorem counts_loadSnapshot (u : UserId) : Counts (onWorld (World.loadSnapshot u)) := by
  rw [onWorld_loadSnapshot]
  have hload : Quiet (ask (World.loadAssignments u)) :=
    quiet_ask (World.leaves_request (fun _ => rfl) fun _ => rfl)
  refine hload.counts.bind fun rows => Counts.bind (Quiet.counts ?_) fun _ => ?_
  · exact quiet_modify fun _ => ⟨rfl, rfl⟩
  · exact (counts_log _).bind fun _ => counts_pure _

theorem counts_snapshot (v : Service Obj) (u : UserId) : Counts (v.snapshot u) := by
  refine Counts.bind ⟨_, .lookUp v.cache u⟩ fun found => ?_
  cases found with
  | some x => exact counts_pure _
  | none =>
    exact (counts_loadSnapshot u).bind fun p => (counts_put v.cache u p _).bind fun _ =>
      counts_pure p

variable [DomainObject Obj]

theorem counts_resolve (v : Service Obj) (subject : Subject Obj) : Counts (v.resolve subject) :=
  Quiet.counts fun s => congrArg (s.counters, ·)
    (World.apart_ledger.leaves_steps.stages.resolve v.resolver subject s.toAtlas)

theorem counts_parts (v : Service Obj) : v.Parts Counts where
  ofExcept _ := Quiet.counts fun _ => rfl
  bind := Counts.bind
  mapError g h := h.mapError g
  attempt := Counts.attempt
  fresh := Counts.fresh
  snapshot := counts_snapshot v
  resolve := counts_resolve v
  drop u := ⟨_, .invalidate u⟩
  letGo _ := Quiet.counts (quiet_modify fun _ => ⟨rfl, rfl⟩)
  log _ := counts_log _
  count hf := Quiet.counts (quiet_modify fun _ => ⟨rfl, Prod.ext (hf _).1 rfl⟩)
  batch n := ⟨_, .batch n⟩

end Service

namespace Operations

open Scene Service

variable {Obj : Type} [DomainObject Obj] {v : Service Obj}

/-- What a service is asked that has to do with the cache. -/
inductive Asked (v : Service Obj) : {ε α : Type} → Act Scene ε α → Prop
  | lookUp (u : UserId) : Asked v (Cache.lookUp v.cache u)
  | check (u : UserId) (ability : String) (subject : Subject Obj) : Asked v (v.check u ability subject)
  | authorize (u : UserId) (ability : String) (subject : Subject Obj) :
    Asked v (v.authorize u ability subject)
  | hasRole (u : UserId) (name : String) (subject : Subject Obj) :
    Asked v (v.hasRole u name subject)
  | isSuperAdmin (u : UserId) : Asked v (v.isSuperAdmin u)
  | actAsSuperAdmin (u : UserId) : Asked v (v.actAsSuperAdmin u)
  | checkBatch (u : UserId) (abilities : List String) (subject : Subject Obj) :
    Asked v (checkBatch v u abilities subject)
  | invalidate (u : UserId) : Asked v (Cache.invalidate u)
  | invalidateShared (u : UserId) : Asked v (Cache.invalidateShared u)
  | invalidateAllLevels (u : UserId) : Asked v (invalidateAllLevels u)
  | invalidateBatch (users : List UserId) : Asked v (invalidateBatch users)
  | warmCache (users : List UserId) : Asked v (warmCache v users)

theorem Asked.counts {ε α : Type} {t : Act Scene ε α} (h : Asked v t) : Counts t := by
  have hparts := counts_parts v
  cases h with
  | lookUp u => exact ⟨_, .lookUp v.cache u⟩
  | check u ability subject => exact hparts.check u ability subject
  | authorize u ability subject => exact hparts.authorize u ability subject
  | hasRole u name subject => exact hparts.hasRole u name subject
  | isSuperAdmin u => exact hparts.isSuperAdmin u
  | actAsSuperAdmin u => exact counts_put v.cache u .ofSuperAdmin v.cache.persistentTtl
  | checkBatch u abilities subject => exact hparts.checkBatch u abilities subject
  | invalidate u => exact hparts.invalidate u
  | invalidateShared u => exact hparts.drop u
  | invalidateAllLevels u => exact hparts.invalidateAllLevels u
  | invalidateBatch users => exact hparts.invalidateBatch users
  | warmCache users => exact hparts.warmCache users

end Operations

end Clearance
