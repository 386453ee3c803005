import Clearance.Proofs.Cache.Mirror
import Clearance.Proofs.Session.Lookup

/-! What is found again. A snapshot that a session has been given is in one of the lower tiers, so
that the next session is given it without a load; and where the key-value store takes all that is
written to it, that session needs nothing else. -/
namespace Clearance

def Scene.Refuses (s : Scene) (c : Call) (e : Error) : Prop :=
  (s.world.ahead.refusal c 0).map .storage = some e

namespace Cache

variable {c : CacheConfig} {u : UserId} {q : Snapshot} {ttl : Nat} {s s' : Scene} {e : Error}

theorem meets_setKey {key : String} {value : ByteArray} (httl : ttl < KeyValueStore.ttlLimit)
    (r : Option StorageError) : (Scene.ask (World.setKey key value ttl)).Meets
      (fun s => s.world.ahead.refusal .setKey 0 = r) (fun _ _ => True)
      fun e _ => r.map .storage = some e := by
  refine Scene.meets_ask ?_ ?_
  · rintro s e rfl hr
    rw [hr, Option.map_some]
  · intro s _
    rw [KeyValueStore.set, if_pos httl]
    trivial

theorem refuses_of_put (httl : ttl < KeyValueStore.ttlLimit)
    (h : (put c u q ttl).runFrom s = (.error e, s')) : s.Refuses .setKey e := by
  have hput : (put c u q ttl).Meets
      (fun t => t.world.ahead.refusal .setKey 0 = s.world.ahead.refusal .setKey 0)
      (fun _ _ => True) fun e _ => s.Refuses .setKey e :=
    (meets_setKey httl _).bind fun _ =>
      Act.Meets.bind (R := fun _ _ => True) (Act.meets_modify fun _ _ => trivial) fun _ =>
        Act.meets_modify fun _ _ => trivial
  exact hput.error rfl h

end Cache

namespace Supplies

/-- A lower tier has this snapshot of the user, and none above it has another one. -/
def Offers (u : UserId) (q : Snapshot) (x : Supplies) : Prop :=
  x.shared.get? (sharedKey u) = some q ∨ x.shared.get? (sharedKey u) = none ∧
    ∃ bytes, x.keyValues.get (persistentKey u) = some bytes ∧ Snapshot.ofBytes? bytes = some q

variable {c : CacheConfig} {u : UserId} {q : Snapshot} {t : Tier} {x y : Supplies}

theorem Offers.lookUp (c : CacheConfig) (h : x.Offers u q) (hheld : x.held.get? u = none) :
    ∃ t, t ≠ .request ∧ (x.lookUp c u).1 = some (q, t) := by
  unfold Supplies.lookUp
  rw [hheld]
  rcases h with hshared | ⟨hshared, bytes, hstored, hread⟩
  · rw [hshared]
    exact ⟨.shared, nofun, rfl⟩
  · rw [hshared]
    simp only [lookUpPersistent, hstored, hread]
    exact ⟨.persistent, nofun, rfl⟩

theorem offers_of_lookUp (hheld : x.held.get? u = none) (h : x.lookUp c u = (some (q, t), y)) :
    y.Offers u q := by
  unfold Supplies.lookUp lookUpPersistent at h
  rw [hheld] at h
  cases hshared : x.shared.get? (sharedKey u) with
  | some p =>
    rw [hshared] at h
    cases h
    exact .inl hshared
  | none =>
    simp only [hshared] at h
    cases hstored : x.keyValues.get (persistentKey u) with
    | none =>
      rw [hstored] at h
      cases h
    | some bytes =>
      cases hread : Snapshot.ofBytes? bytes with
      | none =>
        simp only [hstored, hread] at h
        cases h
      | some p =>
        simp only [hstored, hread] at h
        cases h
        unfold share
        split
        · exact .inl (SortedMap.get?_insert_self ..)
        · exact .inr ⟨hshared, bytes, hstored, hread⟩

theorem unshared_of_lookUp (h : x.lookUp c u = (none, y)) :
    y.shared.get? (sharedKey u) = none := by
  unfold Supplies.lookUp lookUpPersistent at h
  cases hheld : x.held.get? u with
  | some p =>
    rw [hheld] at h
    cases h
  | none =>
    cases hshared : x.shared.get? (sharedKey u) with
    | some p =>
      rw [hheld, hshared] at h
      cases h
    | none =>
      simp only [hheld, hshared] at h
      split at h
      · cases h
        exact hshared
      · split at h
        · cases h
        · cases h
          exact hshared

/-- What is put into every tier is offered, whether or not the second one keeps it. -/
theorem offers_of_put (httl : 0 < c.persistentTtl)
    (hshared : x.shared.get? (sharedKey u) = none) (h : x.put c u q = (.ok (), y)) :
    y.Offers u q := by
  unfold put KeyValueStore.set at h
  split at h
  · cases h
  · next keyValues hset =>
    split at hset
    · cases hset
      cases h
      unfold share
      split
      · exact .inl (SortedMap.get?_insert_self ..)
      · exact .inr ⟨hshared, _, KeyValueStore.get_insert_self _ _ _ httl,
          Snapshot.ofBytes?_toBytes q⟩
    · cases hset

end Supplies

section Serves

variable {Obj : Type} {v : Service Obj} {u : UserId} {q : Snapshot} {s s' : Scene}

/-- A fresh session is given this snapshot of the user by the second or the third tier, and nothing
is loaded for it. That the third tier cannot be read is left out of account. -/
def Scene.Serves (v : Service Obj) (u : UserId) (q : Snapshot) (s : Scene) : Prop :=
  s.world.ahead.refusal .getKey 0 = none → ∃ tier t, tier ≠ Tier.request ∧
    (Cache.lookUp v.cache u).runFrom { s with held := .empty } = (.ok (some (q, tier)), t) ∧
    (v.snapshot u).runFrom { s with held := .empty } = (.ok q, t) ∧
    t.world.callCount .loadAssignments = s.world.callCount .loadAssignments

theorem Scene.serves_of_offers (v : Service Obj) (h : s.supplies.Offers u q) : s.Serves v u q := by
  intro hreads
  let fresh : Scene := { s with held := .empty }
  obtain ⟨tier, htier, hfound⟩ := Supplies.Offers.lookUp (x := fresh.supplies) v.cache h rfl
  have hlook := Cache.lookUp_supplies v.cache u fresh fresh rfl
  have hloads : (fresh.supplies.lookUp v.cache u).2.loads = fresh.supplies.loads :=
    Supplies.loads_lookUp
  generalize hrun : (Cache.lookUp v.cache u).runFrom fresh = r at hlook
  match r, hlook with
  | (.ok found, t), hlook =>
    rw [show fresh.supplies.lookUp v.cache u = (found, t.supplies) from hlook] at hfound hloads
    cases hfound
    exact ⟨tier, t, htier, rfl, Act.runFrom_bind_ok hrun _, hloads⟩
  | (.error e, t), ⟨hrefused, _⟩ =>
    -- neither can a request have been refused, nor is an entry read that cannot be decoded
    rcases hrefused.reason with ⟨e', -, hr⟩ | ⟨bytes, hstored, hread⟩
    · cases hreads.symm.trans hr
    · rcases h with hshared | ⟨-, bytes', hstored', hread'⟩
      · cases hrefused.unshared.symm.trans hshared
      · cases hstored.symm.trans hstored'
        cases hread.symm.trans hread'

/-- A snapshot that a session has looked up is offered to the others. -/
theorem Service.offers_of_snapshot (httl : 0 < v.cache.persistentTtl)
    (hheld : s.held.get? u = none) (h : (v.snapshot u).runFrom s = (.ok q, s')) :
    s'.supplies.Offers u q := by
  have hcases := v.snapshot_cases u s
  simp only [h] at hcases
  obtain ⟨p, t, -, hp, hfound⟩ | ⟨y, -, hmissed, hloaded⟩ | ⟨e, -, he, -⟩ := hcases
  · cases hp
    exact Supplies.offers_of_lookUp hheld hfound
  · obtain ⟨e, he, -⟩ | ⟨rows, -, hp, hput⟩ := hloaded
    · cases he
    · cases hp
      have hshared : y.shared.get? (sharedKey u) = none := Supplies.unshared_of_lookUp hmissed
      exact Supplies.offers_of_put (x := y.noting .loadAssignments) httl hshared hput
  · cases he

/-- Where all that is shared is stored, an offer stands though shared entries vanish. -/
theorem Scene.Mirrors.offers {c : CacheConfig} (h : s.Mirrors c) (hoffers : s.supplies.Offers u q)
    {m : SortedMap String Snapshot}
    (hm : ∀ {key p}, m.get? key = some p → s.shared.get? key = some p) :
    Supplies.Offers u q { s with shared := m }.supplies := by
  have hstored : s.world.keyValues.get (persistentKey u) = some q.toBytes := by
    rcases hoffers with hshared | ⟨-, bytes, hstored, hread⟩
    · exact Mirror.stored h hshared
    · obtain ⟨p, -, rfl⟩ := Mirror.decodes h u bytes hstored
      cases (Snapshot.ofBytes?_toBytes p).symm.trans hread
      exact hstored
  cases hshared : m.get? (sharedKey u) with
  | none => exact .inr ⟨hshared, _, hstored, Snapshot.ofBytes?_toBytes q⟩
  | some p =>
    have hsame : p.toBytes = q.toBytes :=
      Option.some.inj ((Mirror.stored h (hm hshared)).symm.trans hstored)
    have hread := Snapshot.ofBytes?_toBytes p
    rw [hsame, Snapshot.ofBytes?_toBytes q] at hread
    cases hread
    exact .inl hshared

end Serves

end Clearance
