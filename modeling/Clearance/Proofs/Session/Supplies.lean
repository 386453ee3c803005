import Clearance.Proofs.World.Ahead
import Clearance.Session

/-! Snapshots as a function of what they come from. Where nothing is disrupted, the snapshot of a
user follows from the tiers of the cache and from the stored assignments, and it is held by the
session afterwards, so that no other one is loaded. -/
namespace Clearance

/-- What snapshots come from, and how often the assignments of a user have been loaded. -/
structure Supplies where
  held : Held
  shared : SortedMap String Snapshot
  keyValues : KeyValueStore
  assignments : AssignmentStore
  loads : Nat

namespace Supplies

def hold (u : UserId) (p : Snapshot) (x : Supplies) : Supplies :=
  { x with held := x.held.insert u p }

def share (c : CacheConfig) (u : UserId) (p : Snapshot) (x : Supplies) : Supplies :=
  if c.sharedKeeps then { x with shared := x.shared.insert (sharedKey u) p } else x

def noting (c : Call) (x : Supplies) : Supplies :=
  if c = .loadAssignments then { x with loads := x.loads + 1 } else x

/-- What the third tier holds of a user, and what is cached then. -/
def lookUpPersistent (c : CacheConfig) (u : UserId) (x : Supplies) :
    Option (Snapshot × Tier) × Supplies :=
  match x.keyValues.get (persistentKey u) with
  | none => (none, x)
  | some bytes =>
    match Snapshot.ofBytes? bytes with
    | some p => (some (p, .persistent), (x.share c u p).hold u p)
    | none => (none, { x with keyValues := x.keyValues.delete (persistentKey u) })

def lookUp (c : CacheConfig) (u : UserId) (x : Supplies) : Option (Snapshot × Tier) × Supplies :=
  match x.held.get? u with
  | some p => (some (p, .request), x)
  | none =>
    match x.shared.get? (sharedKey u) with
    | some p => (some (p, .shared), x.hold u p)
    | none => x.lookUpPersistent c u

def put (c : CacheConfig) (u : UserId) (p : Snapshot) (x : Supplies) :
    Except Error Unit × Supplies :=
  match x.keyValues.set (persistentKey u) p.toBytes c.persistentTtl with
  | .error e => (.error (.storage e), x)
  | .ok keyValues => (.ok (), ({ x with keyValues }.share c u p).hold u p)

/-- The snapshot of a user; one that had to be loaded is put into every tier. -/
def snapshot (c : CacheConfig) (u : UserId) (x : Supplies) : Except Error Snapshot × Supplies :=
  match x.lookUp c u with
  | (some (p, _), y) => (.ok p, y)
  | (none, y) =>
    match y.assignments.load u with
    | .error e => (.error (.storage e), y.noting .loadAssignments)
    | .ok rows =>
      let z := (y.noting .loadAssignments).put c u (.ofRows rows)
      (z.1.map fun _ => .ofRows rows, z.2)

section Snapshot

variable {c : CacheConfig} {u : UserId} {p : Snapshot} {x : Supplies} {e : Error}

theorem held_hold : (x.hold u p).held.get? u = some p := SortedMap.get?_insert_self ..

theorem loads_share : (x.share c u p).loads = x.loads := by
  unfold share
  split <;> rfl

theorem held_of_lookUpPersistent {t : Tier}
    (h : (x.lookUpPersistent c u).1 = some (p, t)) :
    (x.lookUpPersistent c u).2.held.get? u = some p := by
  unfold lookUpPersistent at h ⊢
  split at h
  · cases h
  · split at h
    · cases h
      exact held_hold
    · cases h

theorem loads_lookUpPersistent : (x.lookUpPersistent c u).2.loads = x.loads := by
  unfold lookUpPersistent
  split
  · rfl
  · split
    · exact loads_share
    · rfl

theorem held_of_lookUp {t : Tier} (h : (x.lookUp c u).1 = some (p, t)) :
    (x.lookUp c u).2.held.get? u = some p := by
  unfold lookUp at h ⊢
  split at h
  next p' hheld =>
    cases h
    exact hheld
  next =>
    split at h
    · cases h
      exact held_hold
    · exact held_of_lookUpPersistent h

theorem loads_lookUp : (x.lookUp c u).2.loads = x.loads := by
  unfold lookUp
  split
  · rfl
  · split
    · rfl
    · exact loads_lookUpPersistent

theorem held_of_put (h : (x.put c u p).1 = .ok ()) : (x.put c u p).2.held.get? u = some p := by
  unfold put at h ⊢
  split at h
  · cases h
  · exact held_hold

theorem loads_put : (x.put c u p).2.loads = x.loads := by
  unfold put
  split
  · rfl
  · exact loads_share

theorem put_error (h : (x.put c u p).1 = .error e) : ∃ e', e = .storage e' := by
  unfold put at h
  split at h
  next e' hset =>
    cases h
    exact ⟨e', rfl⟩
  · cases h

theorem snapshot_cases (c : CacheConfig) (u : UserId) (x : Supplies) :
    (∃ p t, (x.lookUp c u).1 = some (p, t) ∧ x.snapshot c u = (.ok p, (x.lookUp c u).2)) ∨
    (∃ e, x.snapshot c u =
      (.error (.storage e), (x.lookUp c u).2.noting .loadAssignments)) ∨
    ∃ p, x.snapshot c u =
      ((((x.lookUp c u).2.noting .loadAssignments).put c u p).1.map fun _ => p,
        (((x.lookUp c u).2.noting .loadAssignments).put c u p).2) := by
  unfold snapshot
  split
  next p t y h =>
    rw [h]
    exact .inl ⟨p, t, rfl, rfl⟩
  next y h =>
    rw [h]
    split
    next e _ => exact .inr (.inl ⟨e, rfl⟩)
    next rows _ => exact .inr (.inr ⟨.ofRows rows, rfl⟩)

theorem snapshot_of_held (c : CacheConfig) (h : x.held.get? u = some p) :
    x.snapshot c u = (.ok p, x) := by
  have hlook : x.lookUp c u = (some (p, .request), x) := by
    unfold lookUp
    rw [h]
  rw [snapshot, hlook]

theorem held_of_snapshot (h : (x.snapshot c u).1 = .ok p) :
    (x.snapshot c u).2.held.get? u = some p := by
  obtain ⟨p', t, hfound, hrun⟩ | ⟨e, hrun⟩ | ⟨p', hrun⟩ := snapshot_cases c u x
  · rw [hrun] at h ⊢
    cases h
    exact held_of_lookUp hfound
  · rw [hrun] at h
    cases h
  · rw [hrun] at h ⊢
    obtain ⟨⟨⟩, hput, rfl⟩ := Except.map_eq_ok.1 h
    exact held_of_put hput

theorem loads_snapshot_le (c : CacheConfig) (u : UserId) (x : Supplies) :
    (x.snapshot c u).2.loads ≤ x.loads + 1 := by
  have hlook : (x.lookUp c u).2.loads = x.loads := loads_lookUp
  have hnoted : ((x.lookUp c u).2.noting .loadAssignments).loads = x.loads + 1 :=
    congrArg (· + 1) hlook
  obtain ⟨p', t, -, hrun⟩ | ⟨e, hrun⟩ | ⟨p', hrun⟩ := snapshot_cases c u x
  · rw [hrun]
    exact Nat.le_succ_of_le (Nat.le_of_eq hlook)
  · rw [hrun]
    exact Nat.le_of_eq hnoted
  · rw [hrun]
    exact Nat.le_of_eq (loads_put.trans hnoted)

theorem snapshot_error (h : (x.snapshot c u).1 = .error e) : ∃ e', e = .storage e' := by
  obtain ⟨p', t, -, hrun⟩ | ⟨e', hrun⟩ | ⟨p', hrun⟩ := snapshot_cases c u x
  · rw [hrun] at h
    cases h
  · rw [hrun] at h
    cases h
    exact ⟨e', rfl⟩
  · rw [hrun] at h
    exact put_error (Except.map_eq_error.1 h)

end Snapshot

end Supplies

namespace Scene

def supplies (s : Scene) : Supplies :=
  ⟨s.held, s.shared, s.world.keyValues, s.world.assignments, s.world.callCount .loadAssignments⟩

theorem supplies_noting (s : Scene) (c : Call) :
    supplies { s with world := s.world.noting c } = s.supplies.noting c := by
  have hloads := World.callCount_noting c s.world .loadAssignments
  unfold supplies Supplies.noting
  by_cases hc : c = .loadAssignments
  · rw [if_pos hc] at hloads ⊢
    rw [hloads]
    rfl
  · rw [if_neg hc] at hloads ⊢
    rw [hloads]
    rfl

/-- These are the supplies, and nothing is disrupted. -/
structure Supplied (x : Supplies) (s : Scene) : Prop where
  calm : s.world.ahead = .none
  supplies : s.supplies = x

variable {ε α : Type} {x : Supplies}

theorem gives_log (e : Event) :
    (log e : Act Scene ε Unit).Gives (Supplied x) (.ok ⟨⟩) (Supplied x) :=
  Act.gives_modify fun _ h => ⟨h.calm, h.supplies⟩

theorem gives_count (f : Metrics → Metrics) :
    (tell (World.count f) : Act Scene ε Unit).Gives (Supplied x) (.ok ⟨⟩) (Supplied x) :=
  Act.gives_modify fun _ h => ⟨h.calm, h.supplies⟩

theorem gives_counters (f : Scene → Counters) :
    (modify fun s => { s with counters := f s } : Act Scene ε Unit).Gives (Supplied x) (.ok ⟨⟩)
      (Supplied x) := Act.gives_modify fun _ h => ⟨h.calm, h.supplies⟩

theorem gives_hold (u : UserId) (p : Snapshot) :
    (hold u p : Act Scene ε Unit).Gives (Supplied x) (.ok ⟨⟩) (Supplied (x.hold u p)) :=
  Act.gives_modify fun _ h => ⟨h.calm, by rw [← h.supplies]; rfl⟩

theorem gives_share (c : CacheConfig) (u : UserId) (p : Snapshot) :
    (Cache.share c u p : Act Scene ε Unit).Gives (Supplied x) (.ok ⟨⟩)
      (Supplied (x.share c u p)) := by
  refine Act.gives_modify fun s h => ?_
  unfold Supplies.share
  split
  · exact ⟨h.calm, by rw [← h.supplies]; rfl⟩
  · exact h

theorem Supplied.noting {s : Scene} (h : s.Supplied x) (c : Call) :
    Supplied (x.noting c) { s with world := s.world.noting c } :=
  ⟨(World.runFrom_request_of_calm h.calm c fun w => (.ok (), w)).2,
    h.supplies ▸ s.supplies_noting c⟩

theorem gives_request {c : Call} {answer : World → Except StorageError α × World}
    {r : Except StorageError α} {y : Supplies} (h : ∀ s : Scene, s.Supplied (x.noting c) →
      (answer s.world).1 = r ∧ Supplied y { s with world := (answer s.world).2 }) :
    (ask (World.request c answer)).Gives (Supplied x) (r.mapError .storage) (Supplied y) := by
  intro s hs
  have hrun := (World.runFrom_request_of_calm hs.calm c answer).1
  obtain ⟨hout, hleft⟩ := h { s with world := s.world.noting c } (hs.noting c)
  rw [runFrom_ask, hrun]
  exact ⟨congrArg (Except.mapError Error.storage) hout, hleft⟩

theorem gives_getKey (key : String) : (ask (World.getKey key)).Gives (Supplied x)
    (.ok (x.keyValues.get key)) (Supplied x) :=
  gives_request (c := .getKey) (r := .ok (x.keyValues.get key)) fun s h =>
    ⟨by rw [← show s.supplies = x from h.supplies]; rfl, h⟩

theorem gives_deleteKey (key : String) : (ask (World.deleteKey key)).Gives (Supplied x) (.ok ⟨⟩)
    (Supplied { x with keyValues := x.keyValues.delete key }) :=
  gives_request (c := .deleteKey) (r := .ok ()) fun s h =>
    ⟨rfl, h.calm, by rw [← show s.supplies = x from h.supplies]; rfl⟩

theorem gives_loadAssignments (u : UserId) : (ask (World.loadAssignments u)).Gives (Supplied x)
    ((x.assignments.load u).mapError .storage) (Supplied (x.noting .loadAssignments)) :=
  gives_request (c := .loadAssignments) (r := x.assignments.load u) fun _ h =>
    ⟨congrArg (fun y => y.assignments.load u) h.supplies, h⟩

theorem gives_setKey (key : String) (value : ByteArray) (ttl : Nat) :
    (ask (World.setKey key value ttl)).Gives (Supplied x)
      (((x.keyValues.set key value ttl).map fun _ => ()).mapError .storage)
      (Supplied (match x.keyValues.set key value ttl with
        | .ok keyValues => { x with keyValues }
        | .error _ => x)) := by
  refine gives_request (c := .setKey) (r := (x.keyValues.set key value ttl).map fun _ => ()) ?_
  intro s h
  have hkeyValues : s.world.keyValues = x.keyValues := congrArg Supplies.keyValues h.supplies
  simp only [hkeyValues]
  cases x.keyValues.set key value ttl with
  | ok keyValues => exact ⟨rfl, h.calm, by rw [← show s.supplies = x from h.supplies]; rfl⟩
  | error e => exact ⟨rfl, h⟩

theorem gives_loadSnapshot (u : UserId) : (onWorld (World.loadSnapshot u)).Gives (Supplied x)
    (((x.assignments.load u).map .ofRows).mapError .storage)
    (Supplied (x.noting .loadAssignments)) := by
  intro s hs
  obtain ⟨hout, hleft⟩ := gives_loadAssignments u s hs
  change ((World.loadAssignments u).runFrom s.world).1.mapError Error.storage = _ at hout
  change Supplied _ { s with world := ((World.loadAssignments u).runFrom s.world).2 } at hleft
  rw [runFrom_onWorld, World.loadSnapshot, Act.runFrom_bind, Act.runFrom_mapError, hout]
  cases x.assignments.load u with
  | error e => exact ⟨rfl, hleft⟩
  | ok rows => exact ⟨rfl, hleft.calm, hleft.supplies⟩

end Scene

namespace Cache

open Scene

variable {ε : Type} {x : Supplies}

theorem gives_countHit (t : Tier) :
    (countHit t : Act Scene ε Unit).Gives (Supplied x) (.ok ⟨⟩) (Supplied x) :=
  (gives_counters _).bind (gives_count _)

theorem gives_countMiss : (countMiss : Act Scene ε Unit).Gives (Supplied x) (.ok ⟨⟩) (Supplied x) :=
  (gives_counters _).bind (gives_count _)

theorem gives_lookUpPersistent (c : CacheConfig) (u : UserId) :
    (lookUpPersistent c u).Gives (Supplied x) (.ok (x.lookUpPersistent c u).1)
      (Supplied (x.lookUpPersistent c u).2) := by
  unfold Supplies.lookUpPersistent
  refine (gives_getKey (persistentKey u)).bind ?_
  cases x.keyValues.get (persistentKey u) with
  | none => exact gives_countMiss.bind (Act.gives_pure fun _ h => h)
  | some bytes =>
    cases hp : Snapshot.ofBytes? bytes with
    | some p =>
      simp only [hp]
      refine (gives_share c u p).bind ((gives_hold u p).bind ?_)
      exact (gives_countHit _).bind ((gives_log _).bind (Act.gives_pure fun _ h => h))
    | none =>
      simp only [hp]
      refine (gives_log _).bind ((gives_deleteKey _).bind ?_)
      exact gives_countMiss.bind (Act.gives_pure fun _ h => h)

theorem gives_lookUp (c : CacheConfig) (u : UserId) : (lookUp c u).Gives (Supplied x)
    (.ok (x.lookUp c u).1) (Supplied (x.lookUp c u).2) := by
  intro s hs
  have hheld : s.held = x.held := congrArg Supplies.held hs.supplies
  have hshared : s.shared = x.shared := congrArg Supplies.shared hs.supplies
  rw [lookUp, Act.runFrom_bind_ok (Act.runFrom_get s), hheld, hshared]
  unfold Supplies.lookUp
  cases x.held.get? u with
  | some p =>
    refine Act.Gives.bind (gives_countHit _) ?_ s hs
    exact Act.gives_pure fun _ h => h
  | none =>
    cases x.shared.get? (sharedKey u) with
    | some p =>
      refine Act.Gives.bind (gives_hold u p) ((gives_countHit _).bind ?_) s hs
      exact (gives_log _).bind (Act.gives_pure fun _ h => h)
    | none => exact gives_lookUpPersistent c u s hs

theorem gives_put (c : CacheConfig) (u : UserId) (p : Snapshot) :
    (put c u p c.persistentTtl).Gives (Supplied x) (x.put c u p).1 (Supplied (x.put c u p).2) := by
  have hset := gives_setKey (x := x) (persistentKey u) p.toBytes c.persistentTtl
  unfold Supplies.put
  cases hk : x.keyValues.set (persistentKey u) p.toBytes c.persistentTtl with
  | error e =>
    simp only [hk] at hset
    exact hset.bind_error
  | ok keyValues =>
    simp only [hk] at hset
    exact hset.bind ((gives_share c u p).bind (gives_hold u p))

end Cache

/-- What looking up a snapshot gives and leaves. -/
theorem Service.gives_snapshot {Obj : Type} (v : Service Obj) (u : UserId) {x : Supplies} :
    (v.snapshot u).Gives (Scene.Supplied x) (x.snapshot v.cache u).1
      (Scene.Supplied (x.snapshot v.cache u).2) := by
  have hlook := Cache.gives_lookUp (x := x) v.cache u
  unfold Supplies.snapshot
  generalize x.lookUp v.cache u = y at hlook
  match y with
  | (some (p, t), y) => exact hlook.bind (Act.gives_pure fun _ h => h)
  | (none, y) =>
    refine Act.Gives.bind hlook ?_
    have hload := Scene.gives_loadSnapshot (x := y) u
    cases hrows : y.assignments.load u with
    | error e =>
      rw [hrows] at hload
      simp only [hrows]
      exact Act.Gives.bind_error hload
    | ok rows =>
      rw [hrows] at hload
      simp only [hrows]
      refine Act.Gives.bind hload ?_
      rw [bind_pure_comp]
      exact (Cache.gives_put v.cache u (.ofRows rows)).map _

end Clearance
