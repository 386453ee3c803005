import Clearance.Engine
import Clearance.Proofs.Operations.Upkeep
import Clearance.Proofs.World.Stock

/-! Invariants that are made of a condition on each part of the state. What the parts have to
guarantee for a cached snapshot to stay a good one is said once, and every operation of a session
then keeps the invariant. -/
namespace Clearance

/-- A condition on each part of a deployment. Those on the stores and on the roots that have been
read hold for as long as there is `room` for contexts. -/
structure Invariant (Obj : Type) where
  room : ContextStore → Prop
  stock : Stock → Prop
  root : Option Context → Prop
  engine : Engine Obj → Prop
  resolver : Resolver → Prop
  /-- What the second tier may hold of a user. -/
  good : UserId → Snapshot → Prop
  /-- What the first tier may hold of a user. -/
  kept : UserId → Snapshot → Prop

namespace Invariant

variable {Obj : Type} (I : Invariant Obj)

def onParts (root : Option Context) (k : Stock) : Prop := I.room k.contexts → I.stock k ∧ I.root root

def onAtlas (a : Atlas) : Prop := I.onParts a.root a.world.stock

def shared (m : SortedMap String Snapshot) : Prop :=
  ∀ u p, m.get? (sharedKey u) = some p → I.good u p

def held (h : Held) : Prop := ∀ u p, h.get? u = some p → I.kept u p

structure OnScene (s : Scene) : Prop where
  atlas : I.onAtlas s.toAtlas
  shared : I.shared s.shared
  held : I.held s.held

/-- Resolving keeps the conditions on the stores and roots, and the cache has no other way to a
snapshot than a load or an entry that was good. -/
structure Sound [DomainObject Obj] : Prop where
  resolver {e : Engine Obj} : I.engine e → I.resolver e.service.resolver
  resolve {r : Resolver} (subject : Subject Obj) :
    I.resolver r → (r.resolve subject).Keeps I.onAtlas
  readRoot : Resolver.root.Keeps I.onAtlas
  lookUp (o : Owner) : (Resolver.lookUp o).Keeps I.onAtlas
  kept {u p} : I.good u p → I.kept u p
  loaded {k u rows} : (I.room k.contexts → I.stock k) → k.assignments.load u = .ok rows →
    I.good u (.ofRows rows)
  served {k u bytes p} : (I.room k.contexts → I.stock k) →
    k.keyValues.get (persistentKey u) = some bytes → Snapshot.ofBytes? bytes = some p → I.good u p
  written {k u p ttl} : I.stock k → I.good u p → I.stock { k with
    keyValues := ⟨k.keyValues.entries.insert (persistentKey u) ⟨p.toBytes, ttl⟩⟩ }
  recorded {k bytes ttl} : I.stock k → I.stock { k with
    keyValues := ⟨k.keyValues.entries.insert metricsKey ⟨bytes, ttl⟩⟩ }
  deleted {k key} : I.stock k → I.stock { k with keyValues := k.keyValues.delete key }

variable {I} {ε α : Type}

theorem shared_empty : I.shared .empty := fun _ _ h => by cases h

theorem held_empty : I.held .empty := fun _ _ h => by cases h

theorem shared.insert {m : SortedMap String Snapshot} (h : I.shared m) {u : UserId} {p : Snapshot}
    (hp : I.good u p) : I.shared (m.insert (sharedKey u) p) := by
  intro v q hq
  rcases SortedMap.get?_insert_eq_some hq with ⟨hv, rfl⟩ | ⟨-, hq⟩
  · rw [sharedKey_injective hv]
    exact hp
  · exact h v q hq

theorem shared.erase {m : SortedMap String Snapshot} (h : I.shared m) (key : String) :
    I.shared (m.erase key) := fun v q hq => h v q (SortedMap.get?_of_erase hq).2

theorem held.insert {m : Held} (h : I.held m) {u : UserId} {p : Snapshot} (hp : I.kept u p) :
    I.held (m.insert u p) := by
  intro v q hq
  rcases SortedMap.get?_insert_eq_some hq with ⟨rfl, rfl⟩ | ⟨-, hq⟩
  · exact hp
  · exact h v q hq

theorem held.erase {m : Held} (h : I.held m) (u : UserId) : I.held (m.erase u) :=
  fun v q hq => h v q (SortedMap.get?_of_erase hq).2

section Parts

theorem yields_onAtlas {t : Act Atlas ε α} {Q : α → Prop} (h : t.Yields I.onAtlas Q) :
    (Scene.onAtlas t).Yields I.OnScene Q := by
  apply Act.Meets.on (fun _ => rfl)
  intro s a ha
  have := h a ha.atlas
  generalize t.runFrom a = x at this
  match x with
  | (.ok x, a') => exact ⟨⟨this.1, ha.shared, ha.held⟩, this.2⟩
  | (.error e, a') => exact ⟨this, ha.shared, ha.held⟩

theorem keeps_onAtlas {t : Act Atlas ε α} (h : t.Keeps I.onAtlas) :
    (Scene.onAtlas t).Keeps I.OnScene := (yields_onAtlas h.yields).keeps

theorem yields_ask {t : Act World StorageError α} {Q : α → Prop}
    (h : ∀ root, t.Yields (fun w => I.onParts root w.stock) Q) :
    (Scene.ask t).Yields I.OnScene Q := yields_onAtlas (Atlas.meets_ask h)

theorem keeps_ask {t : Act World StorageError α}
    (h : ∀ root, t.Keeps fun w => I.onParts root w.stock) : (Scene.ask t).Keeps I.OnScene :=
  (yields_ask fun root => (h root).yields).keeps

theorem keeps_tell {f : World → World} (h : ∀ w, (f w).stock = w.stock) :
    (Scene.tell f : Act Scene ε Unit).Keeps I.OnScene := by
  refine Act.keeps_modify fun s hs => ⟨?_, hs.shared, hs.held⟩
  show I.onParts s.root (f s.world).stock
  rw [h]
  exact hs.atlas

theorem keeps_log (e : Event) : (Scene.log e : Act Scene ε Unit).Keeps I.OnScene :=
  keeps_tell fun _ => rfl

theorem keeps_count (f : Metrics → Metrics) :
    (Scene.tell (World.count f) : Act Scene ε Unit).Keeps I.OnScene := keeps_tell fun _ => rfl

theorem keeps_counters (f : Scene → Counters) :
    (modify fun s => { s with counters := f s } : Act Scene ε Unit).Keeps I.OnScene :=
  Act.keeps_modify fun _ h => ⟨h.atlas, h.shared, h.held⟩

theorem keeps_hold {u : UserId} {p : Snapshot} (hp : I.kept u p) :
    (Scene.hold u p : Act Scene ε Unit).Keeps I.OnScene :=
  Act.keeps_modify fun _ h => ⟨h.atlas, h.shared, h.held.insert hp⟩

theorem keeps_letGo (u : UserId) : (Scene.letGo u : Act Scene ε Unit).Keeps I.OnScene :=
  Act.keeps_modify fun _ h => ⟨h.atlas, h.shared, h.held.erase u⟩

theorem keeps_unshare (u : UserId) : (Cache.unshare u : Act Scene ε Unit).Keeps I.OnScene :=
  Act.keeps_modify fun _ h => ⟨h.atlas, h.shared.erase _, h.held⟩

theorem keeps_share (c : CacheConfig) {u : UserId} {p : Snapshot} (hp : I.good u p) :
    (Cache.share c u p : Act Scene ε Unit).Keeps I.OnScene := by
  apply Act.keeps_modify
  intro s h
  split
  · exact ⟨h.atlas, h.shared.insert hp, h.held⟩
  · exact h

theorem keeps_countHit (t : Tier) : (Cache.countHit t : Act Scene ε Unit).Keeps I.OnScene :=
  (keeps_counters _).bind fun _ => keeps_count _

theorem keeps_countMiss : (Cache.countMiss : Act Scene ε Unit).Keeps I.OnScene :=
  (keeps_counters _).bind fun _ => keeps_count _

theorem keeps_countInvalidation : (Cache.countInvalidation : Act Scene ε Unit).Keeps I.OnScene :=
  (keeps_counters _).bind fun _ => keeps_count _

end Parts

namespace Sound

variable [DomainObject Obj] (hI : I.Sound)

include hI

theorem keeps_deleteKey (key : String) : (Scene.ask (World.deleteKey key)).Keeps I.OnScene :=
  keeps_ask fun root => (World.meets_deleteKey (I := I.onParts root) (J := I.onParts root)
    fun _ h room => ⟨hI.deleted (h room).1, (h room).2⟩).keeps (fun _ _ h => h) fun _ _ h => h

theorem keeps_setPersistent {u : UserId} {p : Snapshot} (hp : I.good u p) (ttl : Nat) :
    (Scene.ask (World.setKey (persistentKey u) p.toBytes ttl)).Keeps I.OnScene :=
  keeps_ask fun root => (World.meets_setKey (I := I.onParts root) (J := I.onParts root)
    fun _ h room => ⟨hI.written (h room).1 hp, (h room).2⟩).keeps (fun _ _ h => h) fun _ _ h => h

/-- An entry that is found in the third tier and can be decoded is good. -/
theorem yields_getPersistent (u : UserId) :
    (Scene.ask (World.getKey (persistentKey u))).Yields I.OnScene fun found =>
      ∀ bytes p, found = some bytes → Snapshot.ofBytes? bytes = some p → I.good u p :=
  yields_ask fun root => (World.meets_getKey (I := I.onParts root) _).mono (fun _ h => h)
    (fun _ _ ⟨h, hfound⟩ => ⟨h, fun _ _ hb hp =>
      hI.served (fun room => (h room).1) (hfound.symm.trans hb) hp⟩) fun _ _ h => h

theorem yields_loadSnapshot (u : UserId) :
    (Scene.onWorld (World.loadSnapshot u)).Yields I.OnScene (I.good u) :=
  yields_onAtlas (Atlas.meets_onWorld fun root =>
    (World.meets_loadSnapshot (I := I.onParts root) u).mono (fun _ h => h)
      (fun _ _ ⟨h, _, hrows, hp⟩ => ⟨h, hp ▸ hI.loaded (fun room => (h room).1) hrows⟩)
      fun _ _ h => h)

theorem yields_lookUpPersistent (c : CacheConfig) (u : UserId) :
    (Cache.lookUpPersistent c u).Yields I.OnScene fun found =>
      ∀ p t, found = some (p, t) → I.kept u p := by
  refine (hI.yields_getPersistent u).bind fun found hfound => ?_
  cases found with
  | none => exact keeps_countMiss.bind_yields fun _ => Act.yields_pure nofun
  | some bytes =>
    cases hp : Snapshot.ofBytes? bytes with
    | none =>
      simp only [hp]
      refine (keeps_log _).bind_yields fun _ => ?_
      refine (hI.keeps_deleteKey _).bind_yields fun _ => ?_
      exact keeps_countMiss.bind_yields fun _ => Act.yields_pure nofun
    | some p =>
      simp only [hp]
      have hgood := hfound bytes p rfl hp
      refine (keeps_share c hgood).bind_yields fun _ => ?_
      refine (keeps_hold (hI.kept hgood)).bind_yields fun _ => ?_
      refine (keeps_countHit _).bind_yields fun _ => ?_
      refine (keeps_log _).bind_yields fun _ => Act.yields_pure fun q t hq => ?_
      cases hq
      exact hI.kept hgood

/-- What is found of a user, in whatever tier, may be held. -/
theorem yields_lookUp (c : CacheConfig) (u : UserId) :
    (Cache.lookUp c u).Yields I.OnScene fun found => ∀ p t, found = some (p, t) → I.kept u p := by
  apply Act.meets_get_bind
  intro s
  suffices h : I.OnScene s → Act.Yields I.OnScene _ _ from fun s' ⟨hs, he⟩ => h (he ▸ hs) s' hs
  intro hs
  cases hheld : s.held.get? u with
  | some p =>
    have hp := hs.held u p hheld
    refine (keeps_countHit _).bind_yields fun _ => Act.yields_pure fun q t hq => ?_
    cases hq
    exact hp
  | none =>
    cases hshared : s.shared.get? (sharedKey u) with
    | some p =>
      simp only
      have hp := hI.kept (hs.shared u p hshared)
      refine (keeps_hold hp).bind_yields fun _ => ?_
      refine (keeps_countHit _).bind_yields fun _ => ?_
      refine (keeps_log _).bind_yields fun _ => Act.yields_pure fun q t hq => ?_
      cases hq
      exact hp
    | none =>
      simp only
      exact hI.yields_lookUpPersistent c u

theorem keeps_put (c : CacheConfig) {u : UserId} {p : Snapshot} (hp : I.good u p) (ttl : Nat) :
    (Cache.put c u p ttl).Keeps I.OnScene :=
  (hI.keeps_setPersistent hp ttl).bind fun _ => (keeps_share c hp).bind fun _ =>
    keeps_hold (hI.kept hp)

theorem keeps_invalidateShared (u : UserId) : (Cache.invalidateShared u).Keeps I.OnScene :=
  (keeps_unshare u).bind fun _ => (hI.keeps_deleteKey _).bind fun _ => keeps_countInvalidation

theorem yields_snapshot (v : Service Obj) (u : UserId) :
    (v.snapshot u).Yields I.OnScene (I.kept u) := by
  refine (hI.yields_lookUp v.cache u).bind fun found hfound => ?_
  cases found with
  | some x => exact Act.yields_pure (hfound x.1 x.2 rfl)
  | none =>
    refine (hI.yields_loadSnapshot u).bind fun p hp => ?_
    exact (hI.keeps_put v.cache hp _).bind_yields fun _ => Act.yields_pure (hI.kept hp)

theorem keeps_actAsSuperAdmin (v : Service Obj) {u : UserId} (h : I.good u .ofSuperAdmin) :
    (v.actAsSuperAdmin u).Keeps I.OnScene := hI.keeps_put v.cache h _

/-- So does every operation of a service, for one user or for many. -/
theorem upkeep {v : Service Obj} (hv : I.resolver v.resolver) : v.Upkeep I.OnScene where
  fresh hs := ⟨hs.atlas, hs.shared, held_empty⟩
  restored hs hs' := ⟨hs'.atlas, hs'.shared, hs.held⟩
  counters _ hs := ⟨hs.atlas, hs.shared, hs.held⟩
  count _ hs := ⟨hs.atlas, hs.shared, hs.held⟩
  log _ hs := ⟨hs.atlas, hs.shared, hs.held⟩
  resolve subject := keeps_onAtlas (hI.resolve subject hv)
  find o := keeps_onAtlas (hI.lookUp o)
  lookUp u := (hI.yields_lookUp v.cache u).keeps
  load u := (hI.yields_loadSnapshot u).keeps
  snapshot u := (hI.yields_snapshot v u).keeps
  letGo := keeps_letGo
  unshare := hI.keeps_invalidateShared
  readRecord := keeps_ask fun root => (World.meets_getKey (I := I.onParts root) _).keeps
    (fun _ _ h => h.1) fun _ _ h => h
  writeRecord _ _ := keeps_ask fun root =>
    (World.meets_setKey (I := I.onParts root) (J := I.onParts root)
      fun _ h room => ⟨hI.recorded (h room).1, (h room).2⟩).keeps (fun _ _ h => h) fun _ _ h => h

end Sound

end Invariant

end Clearance
