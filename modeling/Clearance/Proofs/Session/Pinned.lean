import Clearance.Proofs.Cache.Mirror
import Clearance.Proofs.Operations.Warming

/-! Pinned users. While a snapshot of a user is stored and no other one is shared, every look-up
finds this one, so that nothing is loaded of the user and no other snapshot gets into any tier. Only
a deletion that is not refused puts an end to that. -/
namespace Clearance

namespace Supplies

/-- This snapshot of the user is stored for some time, and nothing else is shared of the user, nor
held if the session counts. -/
structure Pinned (c : CacheConfig) (own : Prop) (u : UserId) (q : Snapshot) (x : Supplies) :
    Prop where
  retains : 0 < c.persistentTtl
  stored : x.keyValues.get (persistentKey u) = some q.toBytes
  shared {p : Snapshot} : x.shared.get? (sharedKey u) = some p → p = q
  held {p : Snapshot} : own → x.held.get? u = some p → p = q

namespace Pinned

variable {c : CacheConfig} {own : Prop} {u : UserId} {q : Snapshot} {x y : Supplies}

/-- It takes no more than what is cached of the user, and less may be shared and held. -/
theorem of_less (h : x.Pinned c own u q)
    (hstored : y.keyValues.get (persistentKey u) = x.keyValues.get (persistentKey u))
    (hshared : ∀ p, y.shared.get? (sharedKey u) = some p → x.shared.get? (sharedKey u) = some p)
    (hheld : ∀ p, y.held.get? u = some p → x.held.get? u = some p) : y.Pinned c own u q where
  retains := h.retains
  stored := hstored.trans h.stored
  shared hp := h.shared (hshared _ hp)
  held hown hp := h.held hown (hheld _ hp)

theorem share (h : x.Pinned c own u q) : (x.share c u q).Pinned c own u q := by
  unfold Supplies.share
  split
  · exact { h with
      shared := fun hp => (Option.some.inj ((SortedMap.get?_insert_self ..).symm.trans hp)).symm }
  · exact h

theorem hold (h : x.Pinned c own u q) : (x.hold u q).Pinned c own u q :=
  { h with held := fun _ hp =>
      (Option.some.inj ((SortedMap.get?_insert_self ..).symm.trans hp)).symm }

theorem lookUp (h : x.Pinned c own u q) : ∃ p t, (x.lookUp c u).1 = some (p, t) ∧
    (own → p = q) ∧ (x.lookUp c u).2.Pinned c own u q := by
  unfold Supplies.lookUp
  cases hheld : x.held.get? u with
  | some p => exact ⟨p, .request, rfl, fun hown => h.held hown hheld, h⟩
  | none =>
    cases hshared : x.shared.get? (sharedKey u) with
    | some p =>
      cases h.shared hshared
      exact ⟨q, .shared, rfl, fun _ => rfl, h.hold⟩
    | none =>
      simp only [Supplies.lookUpPersistent, h.stored, Snapshot.ofBytes?_toBytes]
      exact ⟨q, .persistent, rfl, fun _ => rfl, h.share.hold⟩

end Pinned

end Supplies

namespace Scene

def Pins (c : CacheConfig) (own : Prop) (u : UserId) (q : Snapshot) (s : Scene) : Prop :=
  s.supplies.Pinned c own u q

variable {ε α : Type} {c : CacheConfig} {own : Prop} {u w : UserId} {q : Snapshot} {s t : Scene}

theorem Pins.spares (h : s.Pins c own u q) (hspares : Spares w s t) (hw : w ≠ u) :
    t.Pins c own u q := by
  have hstored := hspares.keyValues _ fun hkey => hw (persistentKey_injective hkey).symm
  have hshared := hspares.shared _ fun hkey => hw (sharedKey_injective hkey).symm
  refine Supplies.Pinned.of_less h ?_ (fun p hp => hshared.symm.trans hp)
    fun p hp => (hspares.held u hw.symm).symm.trans hp
  show t.world.keyValues.get _ = s.world.keyValues.get _
  rw [KeyValueStore.get, hstored]
  rfl

theorem Pins.about {users : List UserId} (h : s.Pins c own u q) (habout : About users s t)
    (hu : u ∉ users) : t.Pins c own u q := by
  have hstored := habout.keyValues (persistentKey u) fun v hv hkey =>
    hu (persistentKey_injective hkey ▸ hv)
  have hshared := habout.shared (sharedKey u) fun v hv hkey => hu (sharedKey_injective hkey ▸ hv)
  refine Supplies.Pinned.of_less h ?_ (fun p hp => hshared.symm.trans hp)
    fun p hp => (congrArg (·.get? u) habout.held).symm.trans hp
  show t.world.keyValues.get _ = s.world.keyValues.get _
  rw [KeyValueStore.get, hstored]
  rfl

theorem Pins.dropped {l : List (UserId × Option StorageError)} (h : s.Pins c own u q)
    (hdropped : Operations.Dropped l s t) (hu : (u, none) ∉ l) : t.Pins c own u q := by
  refine Supplies.Pinned.of_less h ?_ (fun p hp => ?_)
    fun p hp => (congrArg (·.get? u) hdropped.held).symm.trans hp
  · show t.world.keyValues.get _ = s.world.keyValues.get _
    rw [KeyValueStore.get, hdropped.get?_keyValues, if_neg hu]
    rfl
  · have hp : t.shared.get? (sharedKey u) = some p := hp
    rw [hdropped.shared, SortedMap.get?_foldl_erase] at hp
    split at hp
    · cases hp
    · exact hp

theorem keeps_pins_of_spares {t : Act Scene ε α} (ht : ∀ s, t.Keeps (Spares w s)) (hw : w ≠ u) :
    t.Keeps (Pins c own u q) := fun s h => h.spares (ht s s (.refl w s)) hw

theorem keeps_pins_ask {call : Call} {answer : World → Except StorageError α × World}
    (h : ∀ w, (answer w).2.keyValues.get (persistentKey u) = w.keyValues.get (persistentKey u)) :
    (ask (World.request call answer)).Keeps (Pins c own u q) := by
  intro s hs
  rw [runFrom_ask, World.runFrom_request]
  cases s.world.disruption.refusal call (s.world.callCount call) with
  | some e => exact Supplies.Pinned.of_less hs rfl (fun _ hp => hp) fun _ hp => hp
  | none =>
    refine Supplies.Pinned.of_less hs ?_ (fun _ hp => hp) fun _ hp => hp
    exact h (s.world.noting call)

theorem keeps_pins_onAtlas {t : Act Atlas ε α} (ht : t.Leaves Atlas.backing) :
    (onAtlas t).Keeps (Pins c own u q) := by
  intro s hs
  refine Supplies.Pinned.of_less hs ?_ (fun _ hp => hp) fun _ hp => hp
  exact congrArg (fun b => b.2.get (persistentKey u)) (ht s.toAtlas)

theorem keeps_pins_onWorld {t : Act World ε α}
    (ht : ∀ bytes, t.Keeps fun w => w.keyValues.get (persistentKey u) = some bytes) :
    (onWorld t).Keeps (Pins c own u q) := fun s hs =>
  { hs with stored := ht q.toBytes s.world hs.stored }

theorem keeps_pins_loadSnapshot (w : UserId) :
    (onWorld (World.loadSnapshot w)).Keeps (Pins c own u q) := by
  rw [onWorld_loadSnapshot]
  refine (keeps_pins_ask fun _ => rfl).bind fun _ => ?_
  exact Act.Keeps.bind (Act.keeps_modify fun _ h => h) fun _ =>
    Act.Keeps.bind (Act.keeps_modify fun _ h => h) fun _ => Act.keeps_pure _

end Scene

namespace Cache

open Scene (Pins Spares)

variable {c : CacheConfig} {own : Prop} {u w : UserId} {q : Snapshot}

theorem pins_lookUp (w : UserId) : (lookUp c w).Keeps (Pins c own u q) := by
  by_cases hw : w = u
  · subst hw
    intro s hs
    have hlook := lookUp_supplies c w s s rfl
    obtain ⟨p, t, -, -, hleft⟩ := Supplies.Pinned.lookUp hs
    generalize (lookUp c w).runFrom s = r at hlook
    match r, hlook with
    | (.ok found, s'), hlook =>
      rw [show s.supplies.lookUp c w = (found, s'.supplies) from hlook] at hleft
      exact hleft
    | (.error e, s'), ⟨_, hsame⟩ =>
      show s'.supplies.Pinned c own w q
      rw [hsame]
      exact hs
  · exact Scene.keeps_pins_of_spares (fun s => (Spares.steps c w s).lookUp) hw

/-- A snapshot that is put into every tier pins its user, if nothing else is shared of the user
where the second tier does not keep it. -/
theorem pins_putInto {ttl : Nat} (hretains : 0 < c.persistentTtl) (httl : 0 < ttl) {s : Scene}
    (hshared : c.sharedKeeps = false → ∀ p, s.shared.get? (sharedKey u) = some p → p = q) :
    Pins c own u q (putInto c u q ttl s) where
  retains := hretains
  stored := KeyValueStore.get_insert_self _ _ _ httl
  shared {p} hp := by
    have hp : (if c.sharedKeeps then s.shared.insert (sharedKey u) q else s.shared).get?
      (sharedKey u) = some p := hp
    cases hkeeps : c.sharedKeeps with
    | true =>
      rw [hkeeps, if_pos rfl, SortedMap.get?_insert_self] at hp
      exact (Option.some.inj hp).symm
    | false =>
      rw [hkeeps, if_neg Bool.false_ne_true] at hp
      exact hshared hkeeps p hp
  held _ hp := (Option.some.inj ((SortedMap.get?_insert_self ..).symm.trans hp)).symm

theorem pins_put {p : Snapshot} {ttl : Nat} (hp : w = u → p = q ∧ 0 < ttl) :
    (put c w p ttl).Keeps (Pins c own u q) := by
  by_cases hw : w = u
  · obtain ⟨rfl, httl⟩ := hp hw
    subst hw
    intro s hs
    rcases put_cases c w p ttl s with ⟨e, hrun⟩ | hrun
    · rw [hrun]
      exact Supplies.Pinned.of_less hs rfl (fun _ hp => hp) fun _ hp => hp
    · rw [hrun]
      exact pins_putInto hs.retains httl fun _ _ hp => hs.shared hp
  · exact Scene.keeps_pins_of_spares (fun s => (Spares.steps c w s).put p ttl) hw

/-- A user whose deletion is refused is still pinned. -/
theorem meets_pins_invalidateShared (u : UserId) : (invalidateShared u).Meets (Pins c own u q)
    (fun _ _ => True) fun _ => Pins c own u q := by
  intro s hs
  obtain ⟨t, hdropped, -, hrun⟩ := Operations.invalidateShared_dropped u s
  rw [hrun]
  cases hr : s.world.ahead.refusal .deleteKey 0 with
  | none => trivial
  | some e =>
    rw [hr] at hdropped
    exact hs.dropped hdropped (by simp)

theorem pins_invalidateShared (hw : w ≠ u) : (invalidateShared w).Keeps (Pins c own u q) :=
  fun s hs => hs.about (Operations.about_invalidateShared w s) (by simpa using hw.symm)

end Cache

namespace Service

open Scene (Pins Spares)

variable {Obj : Type} {v : Service Obj} {own : Prop} {u : UserId} {q : Snapshot}

theorem meets_pins_snapshot (v : Service Obj) : (v.snapshot u).Meets (Pins v.cache own u q)
    (fun p s => Pins v.cache own u q s ∧ (own → p = q)) fun _ => Pins v.cache own u q := by
  intro s hs
  obtain ⟨p, t, hfound, hp, hleft⟩ := Supplies.Pinned.lookUp hs
  have hcases := v.snapshot_cases u s
  dsimp only at hcases
  generalize (v.snapshot u).runFrom s = run at hcases
  obtain ⟨r, s'⟩ := run
  obtain ⟨p', t', -, hr, hlook⟩ | ⟨y, -, hmissed, -⟩ | ⟨e, -, hr, -, hsame⟩ := hcases
  · rw [hlook] at hfound hleft
    cases hfound
    cases hr
    exact ⟨hleft, hp⟩
  · rw [hmissed] at hfound
    cases hfound
  · cases hr
    show s'.supplies.Pinned v.cache own u q
    rw [hsame]
    exact hs

theorem pins_snapshot (v : Service Obj) (w : UserId) :
    (v.snapshot w).Keeps (Pins v.cache own u q) := by
  by_cases hw : w = u
  · subst hw
    exact v.meets_pins_snapshot.keeps (fun _ _ h => h.1) fun _ _ h => h
  · exact Scene.keeps_pins_of_spares (fun s => (Spares.steps v.cache w s).snapshot) hw

theorem meets_pins_isSuperAdmin (v : Service Obj) :
    (v.isSuperAdmin u).Meets (Pins v.cache True u .ofSuperAdmin) (fun answer _ => answer = true)
      fun _ _ => True := by
  refine (v.meets_pins_snapshot.mono (fun _ h => h) (fun _ _ h => h) fun _ _ _ => trivial).bind
    fun p => Act.meets_pure fun s hs => ?_
  rw [hs.2 trivial]
  rfl

variable [DomainObject Obj]

/-- Nothing but deletions can put an end to it that a user is pinned. -/
theorem pins_care (v : Service Obj) : v.Care (Pins v.cache own u q) where
  fresh h := { h with held := fun _ hp => nomatch hp }
  restored h h' := { h' with held := h.held }
  counters _ h := h
  count _ h := h
  log _ h := h
  resolve subject := Scene.keeps_pins_onAtlas (Resolver.leaves_resolve v.resolver subject)
  find o := Scene.keeps_pins_onAtlas (Resolver.leaves_lookUp o)
  lookUp := Cache.pins_lookUp
  load := Scene.keeps_pins_loadSnapshot
  snapshot := v.pins_snapshot
  letGo w := Act.keeps_modify fun s h => { h with
    held := fun hown hp => h.held hown (SortedMap.get?_of_erase hp).2 }
  readRecord := Scene.keeps_pins_ask fun _ => rfl
  writeRecord bytes ttl := Scene.keeps_pins_ask fun w => by
    unfold KeyValueStore.set
    by_cases hlimit : ttl < KeyValueStore.ttlLimit
    · rw [if_pos hlimit]
      exact KeyValueStore.get_insert_of_ne _ (persistentKey_ne_metricsKey u) _
    · rw [if_neg hlimit]

end Service

namespace Operations

open Scene (Pins)

variable {Obj : Type} [DomainObject Obj] {own : Prop} {u w : UserId} {q : Snapshot} {s : Scene}

theorem pins_afterWarming (v : Service Obj) (hs : s.Pins v.cache own u q)
    (hrefused : w = u → ((Cache.invalidateShared u).runFrom s).1.isOk = false) :
    (afterWarming v s w).Pins v.cache own u q := by
  by_cases hw : w = u
  · subst hw
    have hdrop := (Cache.meets_pins_invalidateShared w).of_not_isOk hs (hrefused rfl)
    have hfails := hrefused rfl
    refine holds_afterWarming v w s v.pins_care ?_
    generalize hrun : (Cache.invalidateShared w).runFrom s = r at hdrop hfails
    obtain ⟨e | _, t⟩ := r
    · rw [warmUser, Act.runFrom_bind_error hrun]
      exact hdrop
    · cases hfails
  · exact hs.about (about_afterWarming v w s) (by simpa using Ne.symm hw)

/-- Warming leaves a user pinned whose deletions are all refused. -/
theorem pins_warmCache (v : Service Obj) {users : List UserId} (hs : s.Pins v.cache own u q)
    (hrefused : ∀ j, users[j]? = some u → ((Cache.invalidateShared u).runFrom
      ((warmEach v (users.take j)).runFrom s).2).1.isOk = false) :
    ((warmCache v users).runFrom s).2.Pins v.cache own u q := by
  simp only [runFrom_warmEach] at hrefused
  have heach : (users.foldl (afterWarming v) s).Pins v.cache own u q := by
    induction users generalizing s with
    | nil => exact hs
    | cons w users ih =>
      have hfirst : w = u → ((Cache.invalidateShared u).runFrom s).1.isOk = false := by
        rintro rfl
        exact hrefused 0 rfl
      exact ih (pins_afterWarming v hs hfirst) fun j hj => hrefused (j + 1) hj
  refine Act.Keeps.left_bind (fun r => ?_) (congrArg Prod.snd (runFrom_warmEach v s users) ▸ heach)
  exact Act.Keeps.bind (Act.keeps_modify fun _ h => h) fun _ =>
    Act.Keeps.bind (Act.keeps_modify fun _ h => h) fun _ => Act.keeps_pure _

end Operations

end Clearance
