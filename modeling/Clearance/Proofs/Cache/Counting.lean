import Clearance.Proofs.Cache.Counters
import Clearance.Proofs.Operations.Parts
import Clearance.Proofs.Session.Steps
import Clearance.Proofs.World.Stock

/-! What is counted. Look-ups, invalidations and batches are counted by what they come to, and the
counters of a process grow by the counts of all that a computation does on its way. None of that
touches the record of counters. -/
namespace Clearance

namespace Counters

def ofHit : Tier → Counters
  | .request => { requestHits := 1 }
  | .shared => { sharedHits := 1 }
  | .persistent => { persistentHits := 1 }

def ofLookUp : Except Error (Option (Snapshot × Tier)) → Counters
  | .ok (some (_, t)) => ofHit t
  | .ok none => { misses := 1 }
  | .error _ => 0

def ofInvalidation : Except Error Unit → Counters
  | .ok () => { invalidations := 1 }
  | .error _ => 0

end Counters

/-- What has been counted, and the record of counters. -/
def World.ledger (w : World) : Counters × Option ByteArray :=
  (w.metrics.events, w.keyValues.get metricsKey)

namespace World

theorem leaves_ledger_setKey (u : UserId) (value : ByteArray) (ttl : Nat) :
    (setKey (persistentKey u) value ttl).Leaves ledger := by
  refine leaves_request (fun _ => rfl) fun w => ?_
  have hget := w.keyValues.get_insert_of_ne (persistentKey_ne_metricsKey u).symm ⟨value, ttl⟩
  unfold KeyValueStore.set
  by_cases hlimit : ttl < KeyValueStore.ttlLimit
  · rw [if_pos hlimit]
    exact Prod.ext rfl hget
  · rw [if_neg hlimit]

theorem leaves_ledger_deleteKey (u : UserId) :
    (deleteKey (persistentKey u)).Leaves ledger :=
  leaves_request (fun _ => rfl) fun w =>
    Prod.ext rfl (w.keyValues.get_delete_of_ne (persistentKey_ne_metricsKey u).symm)

end World

namespace Scene

def record (s : Scene) : Option ByteArray := s.world.keyValues.get metricsKey

/-- Nothing is counted, and the record is left alone. -/
def Quiet {ε α : Type} (t : Act Scene ε α) : Prop := t.Leaves fun s => (s.counters, s.world.ledger)

/-- The computation is made of look-ups, invalidations and batches, and of what is not counted. From
a scene it comes to these counts. -/
inductive Counting : {ε α : Type} → Act Scene ε α → (Scene → Counters) → Prop
  | lookUp (c : CacheConfig) (u : UserId) :
    Counting (Cache.lookUp c u) fun s => .ofLookUp ((Cache.lookUp c u).runFrom s).1
  | invalidate (u : UserId) :
    Counting (Cache.invalidateShared u) fun s => .ofInvalidation ((Cache.invalidateShared u).runFrom s).1
  | batch (n : Nat) : Counting (Operations.countBatch n) fun _ => { batchChecks := n }
  | quiet {ε α : Type} {t : Act Scene ε α} : Quiet t → Counting t fun _ => 0
  | bind {ε α β : Type} {t : Act Scene ε α} {f : α → Act Scene ε β} {n : Scene → Counters}
      {m : α → Scene → Counters} : Counting t n → (∀ a, Counting (f a) (m a)) →
    Counting (t >>= f) fun s => n s + match t.runFrom s with
      | (.ok a, s) => m a s
      | (.error _, _) => 0
  | mapError {ε ε' α : Type} {t : Act Scene ε α} {n : Scene → Counters} (g : ε → ε') :
    Counting t n → Counting (t.mapError g) n
  | attempt {ε ε' α : Type} {t : Act Scene ε α} {n : Scene → Counters} :
    Counting t n → Counting (t.attempt : Act Scene ε' _) n
  | fresh {ε α : Type} {t : Act Scene ε α} {n : Scene → Counters} :
    Counting t n → Counting (Service.inFreshSession t) fun s => n { s with held := .empty }

variable {ε α β : Type}

/-- The counters grow by what the computation comes to, and the record is left alone. -/
structure Adds (t : Act Scene ε α) (n : Scene → Counters) : Prop where
  counters (s : Scene) : (t.runFrom s).2.counters = s.counters + n s
  record : t.Leaves Scene.record

theorem Quiet.adds {t : Act Scene ε α} (h : Quiet t) : Adds t fun _ => 0 where
  counters s := (Prod.mk.inj (h s)).1.trans (add_zero _).symm
  record s := (Prod.mk.inj (Prod.mk.inj (h s)).2).2

theorem Adds.bind {t : Act Scene ε α} {f : α → Act Scene ε β} {n : Scene → Counters}
    {m : α → Scene → Counters} (ht : Adds t n) (hf : ∀ a, Adds (f a) (m a)) :
    Adds (t >>= f) fun s => n s + match t.runFrom s with
      | (.ok a, s) => m a s
      | (.error _, _) => 0 where
  counters s := by
    have hcounters := ht.counters s
    rw [Act.runFrom_bind]
    match t.runFrom s, hcounters with
    | (.error e, s'), hcounters => exact hcounters.trans (by rw [add_zero])
    | (.ok a, s'), hcounters =>
      show ((f a).runFrom s').2.counters = _
      rw [(hf a).counters, hcounters, add_assoc]
  record := ht.record.bind fun a => (hf a).record

theorem quiet_onWorld {t : Act World ε α} (h : t.Leaves World.ledger) : Quiet (onWorld t) :=
  fun s => congrArg (s.counters, ·) (h s.world)

theorem quiet_ask {t : Act World StorageError α} (h : t.Leaves World.ledger) : Quiet (ask t) :=
  quiet_onWorld (h.mapError _)

theorem leaves_record_ask {t : Act World StorageError α} (h : t.Leaves World.ledger) :
    (ask t).Leaves Scene.record := fun s => congrArg Prod.snd (h s.world)

theorem quiet_modify {f : Scene → Scene}
    (h : ∀ s, (f s).counters = s.counters ∧ (f s).world.ledger = s.world.ledger) :
    Quiet (modify f : Act Scene ε PUnit) := fun s => Prod.ext (h s).1 (h s).2

def Tells (t : Act Scene ε α) (g : Except ε α → Counters) : Prop :=
  ∀ s, (t.runFrom s).2.counters = s.counters + g (t.runFrom s).1

theorem Tells.bind {g : Except ε β → Counters} {t : Act Scene ε α} {f : α → Act Scene ε β}
    (ht : t.Leaves Scene.counters) (hfailed : ∀ e, g (.error e) = 0) (hf : ∀ a, Tells (f a) g) :
    Tells (t >>= f) g := by
  intro s
  have hcounters := ht s
  rw [Act.runFrom_bind]
  match t.runFrom s, hcounters with
  | (.error e, s'), hcounters =>
    show s'.counters = s.counters + g (.error e)
    rw [hfailed, add_zero]
    exact hcounters
  | (.ok a, s'), hcounters =>
    have hcounters : s'.counters = s.counters := hcounters
    show ((f a).runFrom s').2.counters = s.counters + g ((f a).runFrom s').1
    rw [hf, hcounters]

end Scene

namespace Cache

open Scene

theorem tells_lookUpPersistent (c : CacheConfig) (u : UserId) :
    Tells (lookUpPersistent c u) Counters.ofLookUp := by
  refine Tells.bind (fun _ => rfl) (fun _ => rfl) fun found => ?_
  cases found with
  | none => exact fun _ => rfl
  | some bytes =>
    cases hp : Snapshot.ofBytes? bytes with
    | some p =>
      simp only [hp]
      refine Tells.bind (Act.leaves_modify fun s => by split <;> rfl) (fun _ => rfl) fun _ => ?_
      exact fun _ => rfl
    | none =>
      simp only [hp]
      refine Tells.bind (fun _ => rfl) (fun _ => rfl) fun _ => ?_
      exact Tells.bind (fun _ => rfl) (fun _ => rfl) fun _ => fun _ => rfl

theorem tells_lookUp (c : CacheConfig) (u : UserId) : Tells (lookUp c u) Counters.ofLookUp := by
  rw [lookUp_eq]
  refine Tells.bind (fun _ => rfl) (fun _ => rfl) fun held => ?_
  cases held with
  | some p => exact fun _ => rfl
  | none =>
    refine Tells.bind (fun _ => rfl) (fun _ => rfl) fun shared => ?_
    cases shared with
    | some p => exact fun _ => rfl
    | none => exact tells_lookUpPersistent c u

theorem tells_invalidateShared (u : UserId) :
    Tells (invalidateShared u) Counters.ofInvalidation := by
  refine Tells.bind (fun _ => rfl) (fun _ => rfl) fun _ => ?_
  exact Tells.bind (fun _ => rfl) (fun _ => rfl) fun _ => fun _ => rfl

theorem leaves_record_steps (c : CacheConfig) (u : UserId) :
    Steps c u fun t => t.Leaves Scene.record where
  ofExcept := Act.leaves_ofExcept
  bind := Act.Leaves.bind
  heldOf _ := rfl
  sharedOf _ := rfl
  hold _ := Act.leaves_modify fun _ => rfl
  share _ := Act.leaves_modify fun _ => by split <;> rfl
  getKey := leaves_record_ask (World.leaves_request (fun _ => rfl) fun _ => rfl)
  setKey value ttl := leaves_record_ask (World.leaves_ledger_setKey u value ttl)
  deleteKey := leaves_record_ask (World.leaves_ledger_deleteKey u)
  loadAssignments := leaves_record_ask (World.leaves_request (fun _ => rfl) fun _ => rfl)
  counters _ := Act.leaves_modify fun _ => rfl
  count _ := Act.leaves_modify fun _ => rfl
  log _ := Act.leaves_modify fun _ => rfl

theorem leaves_record_invalidateShared (u : UserId) :
    (invalidateShared u).Leaves Scene.record := by
  have hdelete := leaves_record_ask (World.leaves_ledger_deleteKey u)
  have hunshare : (unshare u : Act Scene Error Unit).Leaves Scene.record :=
    Act.leaves_modify fun _ => rfl
  refine hunshare.bind fun _ => hdelete.bind fun _ => Act.Leaves.bind ?_ fun _ => ?_
  · exact Act.leaves_modify fun _ => rfl
  · exact Act.leaves_modify fun _ => rfl

end Cache

namespace Scene

/-- Whatever a computation comes to is added to the counters, and the record is left alone. -/
theorem Counting.adds {ε α : Type} {t : Act Scene ε α} {n : Scene → Counters}
    (h : Counting t n) : Adds t n := by
  induction h with
  | lookUp c u => exact ⟨Cache.tells_lookUp c u, (Cache.leaves_record_steps c u).lookUp⟩
  | invalidate u =>
    exact ⟨Cache.tells_invalidateShared u, Cache.leaves_record_invalidateShared u⟩
  | batch n => exact ⟨fun _ => rfl, fun _ => rfl⟩
  | quiet h => exact h.adds
  | bind _ _ ht hf => exact ht.bind hf
  | mapError g _ h => exact ⟨h.counters, h.record⟩
  | attempt _ h => exact ⟨h.counters, h.record⟩
  | fresh _ h => exact ⟨fun s => h.counters _, fun s => h.record _⟩

end Scene

end Clearance
