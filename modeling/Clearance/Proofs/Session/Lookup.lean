import Clearance.Proofs.Session.Supplies
import Clearance.Proofs.Session.Steps

/-! Looking up a snapshot while stores may refuse requests. What is found, or loaded and put into
every tier, is what the supplies tell; a refusal cuts this short and changes nothing of them. -/
namespace Clearance

theorem Supplies.lookUp_of_held {u : UserId} {p : Snapshot} {x : Supplies} (c : CacheConfig)
    (hheld : x.held.get? u = some p) : x.lookUp c u = (some (p, .request), x) := by
  rw [lookUp, hheld]

theorem Supplies.lookUp_of_none {u : UserId} {x : Supplies} (c : CacheConfig)
    (hheld : x.held.get? u = none) (hshared : x.shared.get? (sharedKey u) = none)
    (hstored : x.keyValues.get (persistentKey u) = none) : x.lookUp c u = (none, x) := by
  unfold lookUp lookUpPersistent
  rw [hheld, hshared]
  simp only [hstored]

theorem Supplies.shared_of_lookUp {c : CacheConfig} {u : UserId} {p : Snapshot} {x : Supplies}
    (h : (x.lookUp c u).1 = some (p, .shared)) : x.shared.get? (sharedKey u) = some p := by
  unfold lookUp lookUpPersistent at h
  split at h
  · cases h
  · split at h
    next q hshared =>
      cases h
      exact hshared
    · split at h
      · cases h
      · split at h <;> cases h

namespace Scene

variable {ε α : Type}

theorem meets_ask {P : Scene → Prop} {Q : α → Scene → Prop} {E : Error → Scene → Prop} {c : Call}
    {answer : World → Except StorageError α × World}
    (hrefused : ∀ s e, P s → s.world.ahead.refusal c 0 = some e →
      E (.storage e) { s with world := s.world.noting c })
    (hanswered : ∀ s, P s → Act.Ends (fun a w => Q a { s with world := w })
      (fun e w => E (.storage e) { s with world := w }) (answer (s.world.noting c))) :
    (ask (World.request c answer)).Meets P Q E := by
  intro s hs
  rw [runFrom_ask, World.runFrom_request_ahead]
  cases hr : s.world.ahead.refusal c 0 with
  | some e => exact hrefused s e hs hr
  | none =>
    have h := hanswered s hs
    dsimp only
    generalize answer (s.world.noting c) = x at h
    match x with
    | (.ok _, _) | (.error _, _) => exact h

theorem supplies_share (c : CacheConfig) (u : UserId) (p : Snapshot) (s : Scene) :
    ((Cache.share c u p : Act Scene ε Unit).runFrom s).2.supplies = s.supplies.share c u p := by
  unfold Cache.share Supplies.share
  rw [Act.runFrom_modify]
  split <;> rfl

theorem meets_share (c : CacheConfig) (u : UserId) (p : Snapshot) (x : Supplies) :
    (Cache.share c u p : Act Scene ε Unit).Meets (fun s => s.supplies = x)
      (fun _ s => s.supplies = x.share c u p) fun _ _ => False :=
  Act.meets_modify fun s hs => (supplies_share (ε := ε) c u p s).trans (by rw [hs])

end Scene

namespace Cache

open Scene

variable {c : CacheConfig} {u : UserId} {s : Scene}

/-- Why there is no answer about a user who is neither held nor shared: reading the entry has been
refused, or deleting one that cannot be decoded. -/
structure Refuses (u : UserId) (s : Scene) (e : Error) : Prop where
  unheld : s.held.get? u = none
  unshared : s.shared.get? (sharedKey u) = none
  reason : (∃ e', e = .storage e' ∧ s.world.ahead.refusal .getKey 0 = some e') ∨
    ∃ bytes, s.world.keyValues.get (persistentKey u) = some bytes ∧ Snapshot.ofBytes? bytes = none

theorem lookUpPersistent_supplies (c : CacheConfig) (hheld : s.held.get? u = none)
    (hshared : s.shared.get? (sharedKey u) = none) :
    (lookUpPersistent c u).Meets (· = s)
      (fun found t => s.supplies.lookUpPersistent c u = (found, t.supplies))
      fun e t => Refuses u s e ∧ t.supplies = s.supplies := by
  let x := s.supplies
  refine Act.Meets.bind (R := fun found t => x.keyValues.get (persistentKey u) = found ∧
    t.supplies = x) (meets_ask ?_ ?_) fun found => ?_
  · rintro s e rfl hr
    exact ⟨⟨hheld, hshared, .inl ⟨e, rfl, hr⟩⟩, s.supplies_noting .getKey⟩
  · rintro s rfl
    exact ⟨rfl, s.supplies_noting .getKey⟩
  show Act.Meets _ _ (fun found (t : Scene) => x.lookUpPersistent c u = (found, t.supplies)) _
  unfold Supplies.lookUpPersistent
  cases found with
  | none =>
    rintro t ⟨hfound, ht⟩
    rw [hfound]
    exact Prod.ext rfl ht.symm
  | some bytes =>
    cases hp : Snapshot.ofBytes? bytes with
    | some p =>
      simp only [hp]
      refine Act.Meets.bind (R := fun _ t => x.keyValues.get (persistentKey u) = some bytes ∧
        t.supplies = x.share c u p) ?_ fun _ => ?_
      · rintro t ⟨hfound, ht⟩
        exact ⟨hfound, (meets_share (ε := Error) c u p x).ok ht rfl⟩
      · rintro t ⟨hfound, ht⟩
        rw [hfound]
        simp only [hp]
        exact Prod.ext rfl (congrArg (·.hold u p) ht.symm)
    | none =>
      simp only [hp]
      refine Act.Meets.bind (R := fun _ t => x.keyValues.get (persistentKey u) = some bytes ∧
        t.supplies = x) (Act.meets_modify fun t ht => ht) fun _ => ?_
      refine Act.Meets.bind (R := fun _ t => x.keyValues.get (persistentKey u) = some bytes ∧
        { x with keyValues := x.keyValues.delete (persistentKey u) } = t.supplies)
        (meets_ask ?_ ?_) fun _ => ?_
      · rintro t e ⟨hfound, ht⟩ -
        exact ⟨⟨hheld, hshared, .inr ⟨bytes, hfound, hp⟩⟩, (t.supplies_noting .deleteKey).trans ht⟩
      · rintro t ⟨hfound, ht⟩
        refine ⟨hfound, ?_⟩
        rw [← ht]
        rfl
      · rintro t ⟨hfound, ht⟩
        rw [hfound]
        simp only [hp]
        exact Prod.ext rfl ht

/-- A look-up finds what the supplies tell, or it is refused. -/
theorem lookUp_supplies (c : CacheConfig) (u : UserId) (s : Scene) : (lookUp c u).Meets (· = s)
    (fun found t => s.supplies.lookUp c u = (found, t.supplies))
    fun e t => Refuses u s e ∧ t.supplies = s.supplies := by
  intro t ht
  rw [ht, lookUp, Act.runFrom_bind_ok (Act.runFrom_get s)]
  unfold Supplies.lookUp
  cases hheld : s.held.get? u with
  | some p =>
    rw [show s.supplies.held.get? u = some p from hheld]
    rfl
  | none =>
    rw [show s.supplies.held.get? u = none from hheld]
    cases hshared : s.shared.get? (sharedKey u) with
    | some p =>
      rw [show s.supplies.shared.get? (sharedKey u) = some p from hshared]
      rfl
    | none =>
      rw [show s.supplies.shared.get? (sharedKey u) = none from hshared]
      exact lookUpPersistent_supplies c hheld hshared s rfl

theorem put_supplies (c : CacheConfig) (u : UserId) (p : Snapshot) (x : Supplies) :
    (put c u p c.persistentTtl).Meets (fun s => s.supplies = x)
      (fun _ s => x.put c u p = (.ok (), s.supplies)) fun _ s => s.supplies = x := by
  let key := persistentKey u
  refine Act.Meets.bind (R := fun _ t => ∃ keyValues,
    x.keyValues.set key p.toBytes c.persistentTtl = .ok keyValues ∧
      t.supplies = { x with keyValues }) (meets_ask ?_ ?_) fun _ => ?_
  · rintro t e rfl -
    exact t.supplies_noting .setKey
  · rintro t rfl
    dsimp only [World.noting]
    cases hset : t.world.keyValues.set key p.toBytes c.persistentTtl with
    | error e => exact t.supplies_noting .setKey
    | ok keyValues => exact ⟨keyValues, hset, rfl⟩
  · rintro t ⟨keyValues, hset, ht⟩
    have hshare := meets_share (ε := Error) c u p { x with keyValues }
    have hhold : (share c u p >>= fun _ => hold u p : Act Scene Error Unit).Meets
        (fun t => t.supplies = { x with keyValues })
        (fun _ t => x.put c u p = (.ok (), t.supplies)) fun _ _ => False := by
      refine hshare.bind fun _ => Act.meets_modify fun t ht => ?_
      show x.put c u p = (.ok (), t.supplies.hold u p)
      rw [Supplies.put, hset, ht]
    exact hhold.mono (fun _ h => h) (fun _ _ h => h) (fun _ _ => False.elim) t ht

end Cache

namespace Service

open Scene

variable {Obj : Type}

theorem meets_inFreshSession {ε α : Type} {P P' : Scene → Prop} {Q Q' : α → Scene → Prop}
    {E E' : ε → Scene → Prop} {t : Act Scene ε α} (h : t.Meets P' Q' E')
    (hP : ∀ s, P s → P' { s with held := .empty })
    (hQ : ∀ a s held, Q' a s → Q a { s with held }) (hE : ∀ e s held, E' e s → E e { s with held }) :
    (inFreshSession t).Meets P Q E := by
  intro s hs
  have hends := h _ (hP s hs)
  show Act.Ends Q E ((t.runFrom { s with held := .empty }).1,
    { (t.runFrom { s with held := .empty }).2 with held := s.held })
  generalize t.runFrom { s with held := .empty } = run at hends
  match run, hends with
  | (.ok a, r), hends => exact hQ a r _ hends
  | (.error e, r), hends => exact hE e r _ hends

def reload (v : Service Obj) (u : UserId) : Act Scene Error Snapshot := do
  let p ← onWorld (World.loadSnapshot u)
  Cache.put v.cache u p v.cache.persistentTtl
  return p

theorem runFrom_snapshot_of_missed {v : Service Obj} {u : UserId} {s t : Scene}
    (h : (Cache.lookUp v.cache u).runFrom s = (.ok none, t)) :
    (v.snapshot u).runFrom s = (v.reload u).runFrom t := Act.runFrom_bind_ok h _

theorem reload_supplies (v : Service Obj) (u : UserId) (y : Supplies) :
    (v.reload u).Meets (fun s => s.supplies = y)
      (fun p s => ∃ rows, y.assignments.load u = .ok rows ∧ p = .ofRows rows ∧
        (y.noting .loadAssignments).put v.cache u p = (.ok (), s.supplies))
      fun _ s => s.supplies = y.noting .loadAssignments := by
  refine Act.Meets.bind (R := fun p s => ∃ rows, y.assignments.load u = .ok rows ∧
    p = .ofRows rows ∧ s.supplies = y.noting .loadAssignments) ?_ fun p => ?_
  · rw [onWorld_loadSnapshot]
    refine Act.Meets.bind (R := fun rows s => y.assignments.load u = .ok rows ∧
      s.supplies = y.noting .loadAssignments) (meets_ask ?_ ?_) fun rows => ?_
    · rintro s e rfl -
      exact s.supplies_noting .loadAssignments
    · rintro s rfl
      show Act.Ends _ _ (s.world.assignments.load u, s.world.noting .loadAssignments)
      cases hload : s.world.assignments.load u with
      | error e => exact s.supplies_noting .loadAssignments
      | ok rows => exact ⟨hload, s.supplies_noting .loadAssignments⟩
    · exact fun s hs => ⟨rows, hs.1, rfl, hs.2⟩
  · rintro s ⟨rows, hload, rfl, hs⟩
    refine Act.Meets.bind (Cache.put_supplies v.cache u _ _) (fun _ => ?_) s hs
    exact Act.meets_pure fun s hs => ⟨rows, hload, rfl, hs⟩

/-- What a session sees of a user: a snapshot that is found, one that is loaded and put into every
tier, or the failure of a store. Only a look-up that finds nothing loads anything, and it does so
once. -/
theorem snapshot_cases (v : Service Obj) (u : UserId) (s : Scene) :
    let found := ((Cache.lookUp v.cache u).runFrom s).1
    let run := (v.snapshot u).runFrom s
    let x := s.supplies
    (∃ p t, found = .ok (some (p, t)) ∧ run.1 = .ok p ∧
      x.lookUp v.cache u = (some (p, t), run.2.supplies)) ∨
    (∃ y, found = .ok none ∧ x.lookUp v.cache u = (none, y) ∧
      ((∃ e, run.1 = .error e ∧ run.2.supplies = y.noting .loadAssignments) ∨
        ∃ rows, y.assignments.load u = .ok rows ∧ run.1 = .ok (.ofRows rows) ∧
          (y.noting .loadAssignments).put v.cache u (.ofRows rows) = (.ok (), run.2.supplies))) ∨
    ∃ e, found = .error e ∧ run.1 = .error e ∧ Cache.Refuses u s e ∧ run.2.supplies = x := by
  intro found run x
  have hlook := Cache.lookUp_supplies v.cache u s s rfl
  have hrun : run = (v.snapshot u).runFrom s := rfl
  clear_value run
  generalize hf : (Cache.lookUp v.cache u).runFrom s = f at hlook
  have hfound : found = f.1 := congrArg Prod.fst hf
  clear_value found
  match f, hlook, hfound with
  | (.error e, t), hlook, hfound =>
    have hrun : run = (.error e, t) := hrun.trans (Act.runFrom_bind_error hf _)
    subst hrun hfound
    exact .inr (.inr ⟨e, rfl, rfl, hlook⟩)
  | (.ok (some (p, tier)), t), hlook, hfound =>
    have hrun : run = (.ok p, t) := hrun.trans (Act.runFrom_bind_ok hf _)
    subst hrun hfound
    exact .inl ⟨p, tier, rfl, rfl, hlook⟩
  | (.ok none, t), hlook, hfound =>
    refine .inr (.inl ⟨t.supplies, hfound, hlook, ?_⟩)
    have hload := reload_supplies v u t.supplies t rfl
    rw [← runFrom_snapshot_of_missed hf, ← hrun] at hload
    clear hrun
    match run, hload with
    | (.error e, r), hload => exact .inl ⟨e, rfl, hload⟩
    | (.ok p, r), ⟨rows, hrows, hp, hput⟩ =>
      subst hp
      exact .inr ⟨rows, hrows, rfl, hput⟩

end Service

end Clearance
