import Clearance.Proofs.Invariant.Vouched
import Clearance.Proofs.Operations.Upkeep
import Clearance.Proofs.Session.Steps

/-! The second tier as a mirror of the third. A snapshot is stored before it is shared, and it is
shared no longer when it is deleted, so wherever an operation is cut short, nothing is shared of a
user but what is stored. -/
namespace Clearance

/-- Nothing has been dropped because it could not be decoded. -/
def Undropped (events : Array Event) : Prop := ∀ e ∈ events, e.isDrop = false

theorem Undropped.push {events : Array Event} (h : Undropped events) {e : Event}
    (he : e.isDrop = false) : Undropped (events.push e) := by
  intro e' hmem
  rcases Array.mem_push.1 hmem with hmem | rfl
  · exact h e' hmem
  · exact he

/-- What is shared of a user is stored, and all that is stored of a user can be decoded. -/
structure Mirror (c : CacheConfig) (shared : SortedMap String Snapshot) (kv : KeyValueStore)
    (events : Array Event) : Prop where
  retains : 0 < c.persistentTtl
  stored {u : UserId} {q : Snapshot} :
    shared.get? (sharedKey u) = some q → kv.get (persistentKey u) = some q.toBytes
  decodes : kv.Vouched fun _ _ => True
  unused {u : UserId} : c.sharedKeeps = false → shared.get? (sharedKey u) = none
  undropped : Undropped events

namespace Mirror

variable {c : CacheConfig} {shared : SortedMap String Snapshot} {kv : KeyValueStore}
  {events : Array Event} {u : UserId} {q : Snapshot}

theorem ne_of_shared (hu : shared.get? (sharedKey u) = none) {v : UserId} {p : Snapshot}
    (hp : shared.get? (sharedKey v) = some p) : persistentKey v ≠ persistentKey u := fun hkey => by
  rw [persistentKey_injective hkey, hu] at hp
  cases hp

variable (h : Mirror c shared kv events)

include h

theorem log {e : Event} (he : e.isDrop = false) : Mirror c shared kv (events.push e) :=
  { h with undropped := h.undropped.push he }

theorem unshare (key : String) : Mirror c (shared.erase key) kv events :=
  { h with
    stored := fun hq => h.stored (SortedMap.get?_of_erase hq).2
    unused := fun hkeeps => SortedMap.get?_erase_of_none (h.unused hkeeps) }

theorem share (hq : kv.get (persistentKey u) = some q.toBytes) (hkeeps : c.sharedKeeps = true) :
    Mirror c (shared.insert (sharedKey u) q) kv events :=
  { h with
    stored := fun {v p} hp => by
      rcases SortedMap.get?_insert_eq_some hp with ⟨hkey, rfl⟩ | ⟨-, hp⟩
      · rw [sharedKey_injective hkey]
        exact hq
      · exact h.stored hp
    unused := fun hkeeps' => by cases hkeeps.symm.trans hkeeps' }

/-- What is stored of a user who is not shared makes no difference to the others. -/
theorem store (hu : shared.get? (sharedKey u) = none) (ttl : Nat) :
    Mirror c shared ⟨kv.entries.insert (persistentKey u) ⟨q.toBytes, ttl⟩⟩ events :=
  { h with
    stored := fun {v p} hp => by
      rw [KeyValueStore.get_insert_of_ne _ (ne_of_shared hu hp)]
      exact h.stored hp
    decodes := h.decodes.insertSnapshot trivial ttl }

theorem replace (hkeeps : c.sharedKeeps = true) {ttl : Nat} (httl : 0 < ttl) :
    Mirror c (shared.insert (sharedKey u) q)
      ⟨kv.entries.insert (persistentKey u) ⟨q.toBytes, ttl⟩⟩ events :=
  { h with
    stored := fun {v p} hp => by
      rcases SortedMap.get?_insert_eq_some hp with ⟨hkey, rfl⟩ | ⟨hkey, hp⟩
      · rw [sharedKey_injective hkey]
        exact kv.get_insert_self _ _ httl
      · have hne : persistentKey v ≠ persistentKey u := fun he =>
          hkey (congrArg sharedKey (persistentKey_injective he))
        rw [KeyValueStore.get_insert_of_ne _ hne]
        exact h.stored hp
    decodes := h.decodes.insertSnapshot trivial ttl
    unused := fun hkeeps' => by cases hkeeps.symm.trans hkeeps' }

theorem delete (hu : shared.get? (sharedKey u) = none) :
    Mirror c shared (kv.delete (persistentKey u)) events :=
  { h with
    stored := fun {v p} hp => by
      rw [KeyValueStore.get_delete_of_ne _ (ne_of_shared hu hp)]
      exact h.stored hp
    decodes := h.decodes.delete _ }

theorem record (bytes : ByteArray) (ttl : Nat) :
    Mirror c shared ⟨kv.entries.insert metricsKey ⟨bytes, ttl⟩⟩ events :=
  { h with
    stored := fun {v p} hp => by
      rw [KeyValueStore.get_insert_of_ne _ (persistentKey_ne_metricsKey v)]
      exact h.stored hp
    decodes := h.decodes.insertMetrics bytes ttl }

end Mirror

section Silent

/-- The key-value store is this, and nothing has been dropped from it. -/
def Silent (kv : KeyValueStore) (w : World) : Prop :=
  w.keyValues = kv ∧ Undropped w.events

variable {kv : KeyValueStore} {w : World}

theorem Silent.log (h : Silent kv w) {e : Event} (he : e.isDrop = false) : Silent kv (w.log e) :=
  ⟨h.1, h.2.push he⟩

namespace World

theorem silent_getContext (id : ContextId) : (getContext id).Keeps (Silent kv) :=
  keeps_request (fun _ h => h) fun _ h => h

theorem silent_findContext (o : Owner) : (findContext o).Keeps (Silent kv) :=
  keeps_request (fun _ h => h) fun _ h => h

theorem silent_createContext (d : Draft) : (createContext d).Keeps (Silent kv) := by
  refine keeps_request (fun _ h => h) fun w h => ?_
  cases w.disruption.imposed with
  | some r => exact h
  | none => cases w.contexts.create d <;> exact h

theorem silent_loadAssignments (u : UserId) : (loadAssignments u).Keeps (Silent kv) :=
  keeps_request (fun _ h => h) fun _ h => h

theorem silent_getKey (key : String) : (getKey key).Keeps (Silent kv) :=
  keeps_request (fun _ h => h) fun _ h => h

theorem silent_loadSnapshot (u : UserId) : (loadSnapshot u).Keeps (Silent kv) :=
  ((silent_loadAssignments u).mapError _).bind fun _ =>
    Act.Keeps.bind (Act.keeps_modify fun _ h => h) fun _ =>
      Act.Keeps.bind (Act.keeps_modify fun _ h => h.log rfl) fun _ => Act.keeps_pure _

end World

/-- Resolving asks nothing of the key-value store. -/
theorem Resolver.silent_course : Course fun t => t.Keeps fun a => Silent kv a.world where
  ofExcept := Act.keeps_ofExcept
  bind := Act.Keeps.bind
  root := root_of Act.keeps_ofExcept Act.Keeps.bind (fun _ h => h)
    (fun a h => World.silent_getContext rootId a.world h) fun _ => Act.keeps_modify fun _ h => h
  find o a h := World.silent_findContext o a.world h
  createOrFind d := createOrFind_of Act.keeps_ofExcept Act.Keeps.bind
    (fun o a h => World.silent_findContext o a.world h) d
    fun a h => World.silent_createContext d a.world h
  created _ _ _ _ := Act.keeps_modify fun _ h => h.log rfl

end Silent

namespace Scene

variable {ε α : Type} {c : CacheConfig}

def Mirrors (c : CacheConfig) (s : Scene) : Prop :=
  Mirror c s.shared s.world.keyValues s.world.events

theorem mirrors_onAtlas {t : Act Atlas ε α} (ht : ∀ kv, t.Keeps fun a => Silent kv a.world) :
    (onAtlas t).Keeps (Mirrors c) := by
  intro s h
  obtain ⟨hkv, hevents⟩ := ht s.world.keyValues s.toAtlas ⟨rfl, h.undropped⟩
  have hsame : Mirror c s.shared s.world.keyValues (t.runFrom s.toAtlas).2.world.events :=
    { h with undropped := hevents }
  rwa [← hkv] at hsame

theorem mirrors_onWorld {t : Act World ε α} (ht : ∀ kv, t.Keeps (Silent kv)) :
    (onWorld t).Keeps (Mirrors c) := mirrors_onAtlas fun kv a h => ht kv a.world h

theorem mirrors_log {e : Event} (he : e.isDrop = false) :
    (log e : Act Scene ε Unit).Keeps (Mirrors c) := Act.keeps_modify fun _ h => Mirror.log h he

end Scene

namespace Cache

open Scene (Mirrors)

variable {c : CacheConfig} {u : UserId} {q : Snapshot} {s : Scene}

theorem mirrors_countHit (t : Tier) : (countHit t : Act Scene Error Unit).Keeps (Mirrors c) :=
  fun _ h => h

theorem mirrors_countMiss : (countMiss : Act Scene Error Unit).Keeps (Mirrors c) := fun _ h => h

theorem mirrors_hold (p : Snapshot) : (Scene.hold u p : Act Scene Error Unit).Keeps (Mirrors c) :=
  fun _ h => h

theorem meets_getKey (key : String) : (Scene.ask (World.getKey key)).Meets (Mirrors c)
    (fun found s => Mirrors c s ∧ s.world.keyValues.get key = found) fun _ => Mirrors c := by
  intro s h
  rw [Scene.runFrom_ask, World.getKey, World.runFrom_request]
  cases s.world.disruption.refusal .getKey (s.world.callCount .getKey) with
  | some e => exact h
  | none => exact ⟨h, rfl⟩

theorem meets_deleteKey : (Scene.ask (World.deleteKey (persistentKey u))).Meets
    (fun s => Mirrors c s ∧ s.shared.get? (sharedKey u) = none) (fun _ => Mirrors c)
    fun _ => Mirrors c := by
  intro s h
  rw [Scene.runFrom_ask, World.deleteKey, World.runFrom_request]
  cases s.world.disruption.refusal .deleteKey (s.world.callCount .deleteKey) with
  | some e => exact h.1
  | none => exact Mirror.delete h.1 h.2

theorem mirrors_invalidateShared (u : UserId) : (invalidateShared u).Keeps (Mirrors c) := by
  have hunshare : (unshare u : Act Scene Error Unit).Meets (Mirrors c)
      (fun _ s => Mirrors c s ∧ s.shared.get? (sharedKey u) = none) fun _ => Mirrors c :=
    Act.meets_modify fun s h => ⟨Mirror.unshare h _, SortedMap.get?_erase_self ..⟩
  have hall : (invalidateShared u).Meets (Mirrors c) (fun _ => Mirrors c) fun _ => Mirrors c :=
    hunshare.bind fun _ => meets_deleteKey.bind fun _ =>
      Act.Meets.bind (R := fun _ => Mirrors c) (Act.meets_modify fun _ h => h) fun _ =>
        Act.meets_modify fun _ h => h
  exact fun _ hs => hall.left hs

theorem mirrors_share : (share c u q : Act Scene Error Unit).Meets
    (fun s => Mirrors c s ∧ s.world.keyValues.get (persistentKey u) = some q.toBytes)
    (fun _ => Mirrors c) fun _ => Mirrors c := by
  refine Act.meets_modify fun s h => ?_
  split
  · next hkeeps => exact Mirror.share h.1 h.2 hkeeps
  · exact h.1

/-- All that is found of a user can be decoded, so none of it is dropped. -/
theorem mirrors_lookUpPersistent (u : UserId) : (lookUpPersistent c u).Keeps (Mirrors c) := by
  have hall : (lookUpPersistent c u).Meets (Mirrors c) (fun _ => Mirrors c) fun _ => Mirrors c := by
    refine (meets_getKey _).bind fun found => ?_
    cases found with
    | none =>
      exact (mirrors_countMiss.bind fun _ => Act.keeps_pure none).meets.mono (fun _ h => h.1)
        (fun _ _ h => h) fun _ _ h => h
    | some bytes =>
      rintro s ⟨hs, hbytes⟩
      obtain ⟨p, -, rfl⟩ := Mirror.decodes hs u bytes hbytes
      simp only [Snapshot.ofBytes?_toBytes]
      refine (mirrors_share.bind fun _ => Act.Keeps.meets ?_) s ⟨hs, hbytes⟩
      exact (mirrors_hold p).bind fun _ => (mirrors_countHit _).bind fun _ =>
        (Scene.mirrors_log rfl).bind fun _ => Act.keeps_pure _
  exact fun _ hs => hall.left hs

theorem mirrors_lookUp (u : UserId) : (lookUp c u).Keeps (Mirrors c) := by
  -- `Steps.lookUp` asks for every event to be harmless, that of a drop included
  rw [lookUp_eq]
  refine Act.Keeps.bind (fun _ h => h) fun held => ?_
  cases held with
  | some p => exact (mirrors_countHit _).bind fun _ => Act.keeps_pure _
  | none =>
    refine Act.Keeps.bind (fun _ h => h) fun shared => ?_
    cases shared with
    | some p =>
      exact (mirrors_hold p).bind fun _ => (mirrors_countHit _).bind fun _ =>
        (Scene.mirrors_log rfl).bind fun _ => Act.keeps_pure _
    | none => exact mirrors_lookUpPersistent u

def putInto (c : CacheConfig) (u : UserId) (q : Snapshot) (ttl : Nat) (s : Scene) : Scene :=
  { s with
    world := { s.world.noting .setKey with
      keyValues := ⟨s.world.keyValues.entries.insert (persistentKey u) ⟨q.toBytes, ttl⟩⟩ }
    shared := if c.sharedKeeps then s.shared.insert (sharedKey u) q else s.shared
    held := s.held.insert u q }

/-- A snapshot that cannot be stored is put nowhere. -/
theorem put_cases (c : CacheConfig) (u : UserId) (q : Snapshot) (ttl : Nat) (s : Scene) :
    (∃ e, (put c u q ttl).runFrom s = (.error e, { s with world := s.world.noting .setKey })) ∨
      (put c u q ttl).runFrom s = (.ok (), putInto c u q ttl s) := by
  have hask := Scene.runFrom_ask (World.setKey (persistentKey u) q.toBytes ttl) s
  rcases World.setKey_cases (persistentKey u) q.toBytes ttl s.world with ⟨e, hrun⟩ | hrun
  · rw [hrun] at hask
    exact .inl ⟨_, Act.runFrom_bind_error hask _⟩
  · rw [hrun] at hask
    refine .inr ((Act.runFrom_bind_ok hask _).trans ?_)
    show (Except.ok (), _) = _
    rw [putInto]
    cases c.sharedKeeps <;> rfl

theorem mirrors_put {ttl : Nat} (httl : 0 < ttl) : (put c u q ttl).Keeps (Mirrors c) := by
  intro s h
  rcases put_cases c u q ttl s with ⟨e, hrun⟩ | hrun
  · rw [hrun]
    exact h
  · rw [hrun]
    show Mirror c (if c.sharedKeeps then _ else _) _ _
    cases hkeeps : c.sharedKeeps with
    | true => exact Mirror.replace h hkeeps httl
    | false => exact Mirror.store h (Mirror.unused h hkeeps) ttl

end Cache

namespace Service

open Scene (Mirrors)

variable {Obj : Type} (v : Service Obj)

theorem mirrors_snapshot (u : UserId) : (v.snapshot u).Keeps (Mirrors v.cache) := by
  refine (Cache.mirrors_lookUp u).bind fun found => ?_
  cases found with
  | some x => exact Act.keeps_pure _
  | none =>
    refine (Scene.mirrors_onWorld fun _ => World.silent_loadSnapshot u).bind fun p => ?_
    have hput : (Cache.put v.cache u p v.cache.persistentTtl).Keeps (Mirrors v.cache) :=
      fun s hs => Cache.mirrors_put (Mirror.retains hs) s hs
    exact hput.bind fun _ => Act.keeps_pure _

/-- Every operation of a service keeps its shared tier a mirror of what is stored. -/
theorem mirrors_upkeep [DomainObject Obj] : v.Upkeep (Mirrors v.cache) where
  fresh h := h
  restored _ h := h
  counters _ h := h
  count _ h := h
  log he h := Mirror.log h he
  resolve subject := Scene.mirrors_onAtlas fun _ =>
    Resolver.silent_course.resolve v.resolver subject
  find o := Scene.mirrors_onAtlas fun _ => Resolver.silent_course.lookUp o
  lookUp := Cache.mirrors_lookUp
  load u := Scene.mirrors_onWorld fun _ => World.silent_loadSnapshot u
  snapshot := v.mirrors_snapshot
  letGo _ _ h := h
  unshare := Cache.mirrors_invalidateShared
  readRecord := Scene.mirrors_onWorld fun _ => (World.silent_getKey metricsKey).mapError _
  writeRecord bytes ttl s h := by
    rw [Scene.runFrom_ask]
    rcases World.setKey_cases metricsKey bytes ttl s.world with ⟨e, hrun⟩ | hrun
    · rw [hrun]
      exact h
    · rw [hrun]
      exact Mirror.record h bytes ttl

end Service

end Clearance
