import Clearance.Proofs.Session.Steps

/-! What a session has seen of a user. A look-up that is answered leaves its answer in the first
tier, and from there every later look-up of the session is answered, whatever has become of the
other tiers and of the stores. -/
namespace Clearance

def Scene.Remembers (u : UserId) (q : Snapshot) (s : Scene) : Prop := s.held.get? u = some q

namespace Cache

open Scene (Remembers)

variable {c : CacheConfig} {u w : UserId} {q : Snapshot}

theorem keeps_countHit (t : Tier) :
    (countHit t : Act Scene Error Unit).Keeps (Remembers u q) := fun _ h => h

theorem keeps_log (e : Event) : (Scene.log e : Act Scene Error Unit).Keeps (Remembers u q) :=
  fun _ h => h

theorem keeps_invalidateShared (w : UserId) : (invalidateShared w).Keeps (Remembers u q) :=
  Act.Keeps.bind (fun _ h => h) fun _ => Act.Keeps.bind (fun _ h => h) fun _ _ h => h

theorem gives_held : (lookUp c u).Gives (Remembers u q) (.ok (some (q, .request)))
    (Remembers u q) := by
  rw [lookUp_eq]
  have hheld : (Scene.heldOf u : Act Scene Error _).Gives (Remembers u q) (.ok (some q))
      (Remembers u q) := fun s hs => ⟨congrArg Except.ok hs, hs⟩
  have hcount : (countHit .request : Act Scene Error Unit).Gives (Remembers u q) (.ok ())
      (Remembers u q) := fun _ hs => ⟨rfl, hs⟩
  exact hheld.bind (hcount.bind (Act.gives_pure fun _ h => h))

/-- What has been found, if anything, is held. -/
def Found (u : UserId) (found : Option (Snapshot × Tier)) (s : Scene) : Prop :=
  ∀ p t, found = some (p, t) → s.Remembers u p

section Found

variable {α : Type} {P : Scene → Prop}

theorem meets_hold : (Scene.hold u q : Act Scene Error Unit).Meets P (fun _ => Remembers u q)
    fun _ _ => True := Act.meets_modify fun _ _ => SortedMap.get?_insert_self ..

theorem meets_of_keeps {t : Act Scene Error α} (h : t.Keeps (Remembers u q)) :
    t.Meets (Remembers u q) (fun _ => Remembers u q) fun _ _ => True :=
  h.meets.mono (fun _ h => h) (fun _ _ h => h) fun _ _ _ => trivial

theorem meets_some (t : Tier) : (pure (some (q, t)) : Act Scene Error _).Meets (Remembers u q)
    (Found u) fun _ _ => True := by
  refine Act.meets_pure fun s hs p t' he => ?_
  cases he
  exact hs

theorem meets_none :
    (pure none : Act Scene Error (Option (Snapshot × Tier))).Meets P (Found u) fun _ _ => True :=
  Act.meets_pure fun _ _ => nofun

theorem meets_lookUpPersistent :
    (lookUpPersistent c u).Meets P (Found u) fun _ _ => True := by
  refine Act.meets_true.bind fun found => ?_
  cases found with
  | none => exact Act.meets_true.bind fun _ => meets_none
  | some bytes =>
    cases hp : Snapshot.ofBytes? bytes with
    | some p =>
      simp only [hp]
      refine Act.meets_true.bind fun _ => meets_hold.bind fun _ => ?_
      exact (meets_of_keeps (keeps_countHit _)).bind fun _ =>
        (meets_of_keeps (keeps_log _)).bind fun _ => meets_some _
    | none =>
      simp only [hp]
      exact Act.meets_true.bind fun _ => Act.meets_true.bind fun _ => Act.meets_true.bind fun _ =>
        meets_none

theorem meets_lookUp : (lookUp c u).Meets P (Found u) fun _ _ => True := by
  rw [lookUp_eq]
  have hheld : (Scene.heldOf u : Act Scene Error _).Meets P
      (fun found s => s.held.get? u = found) fun _ _ => True := fun _ _ => rfl
  refine hheld.bind fun held => ?_
  cases held with
  | some p => exact (meets_of_keeps (keeps_countHit _)).bind fun _ => meets_some _
  | none =>
    refine Act.meets_true.bind fun shared => ?_
    cases shared with
    | some p =>
      refine meets_hold.bind fun _ => (meets_of_keeps (keeps_countHit _)).bind fun _ => ?_
      exact (meets_of_keeps (keeps_log _)).bind fun _ => meets_some _
    | none => exact meets_lookUpPersistent

end Found

/-- What is done with the entries of another user leaves those of this one. -/
theorem remembers_steps (hw : w ≠ u) :
    Steps c w fun {_} (t : Act Scene Error _) => t.Keeps (Remembers u q) where
  ofExcept := Act.keeps_ofExcept
  bind := Act.Keeps.bind
  heldOf _ h := h
  sharedOf _ h := h
  hold _ := Act.keeps_modify fun _ h => (SortedMap.get?_insert_of_ne _ _ hw.symm).trans h
  share _ := Act.keeps_modify fun s h => by split <;> exact h
  getKey _ h := h
  setKey _ _ _ h := h
  deleteKey _ h := h
  loadAssignments _ h := h
  counters _ := Act.keeps_modify fun _ h => h
  count _ := Act.keeps_modify fun _ h => h
  log _ := keeps_log _

end Cache

namespace Service

open Scene (Remembers)

variable {Obj : Type} {v : Service Obj} {u w : UserId} {q : Snapshot} {s : Scene}

theorem gives_remembered : (v.snapshot u).Gives (Remembers u q) (.ok q) (Remembers u q) :=
  Cache.gives_held.bind (Act.gives_pure fun _ h => h)

/-- What has answered a look-up is held from then on. -/
theorem remembers_of_snapshot (hq : ((v.snapshot u).runFrom s).1 = .ok q) :
    ((v.snapshot u).runFrom s).2.Remembers u q := by
  have hmeets : (v.snapshot u).Meets (fun _ => True) (fun p s => s.Remembers u p)
      fun _ _ => True := by
    refine Cache.meets_lookUp.bind fun found => ?_
    cases found with
    | some x => exact Act.meets_pure fun s hs => hs x.1 x.2 rfl
    | none =>
      refine Act.meets_true.bind fun p => ?_
      refine Act.Meets.bind (R := fun _ => Remembers u p) ?_ fun _ => Act.meets_pure fun _ h => h
      exact Act.meets_true.bind fun _ => Act.meets_true.bind fun _ => Cache.meets_hold
  exact hmeets.ok trivial (Prod.ext hq rfl)

theorem keeps_snapshot (v : Service Obj) (w : UserId) :
    (v.snapshot w).Keeps (Remembers u q) := by
  by_cases hw : w = u
  · subst hw
    exact fun s hs => (gives_remembered s hs).2
  · exact (Cache.remembers_steps hw).snapshot

/-- No decision makes the session forget what it has seen, about whomever it is. -/
theorem remembers_stages (v : Service Obj) (w : UserId) :
    Stages v w fun {_} (t : Act Scene Error _) => t.Keeps (Remembers u q) where
  ofExcept := Act.keeps_ofExcept
  bind := Act.Keeps.bind
  snapshot := keeps_snapshot v w
  log := Cache.keeps_log

variable [DomainObject Obj] {subject : Subject Obj}

theorem keeps_resolve (v : Service Obj) (subject : Subject Obj) :
    (v.resolve subject).Keeps (Remembers u q) := fun _ h => h

theorem remembers_of_check {ability : String}
    (hpolicy : v.policies.evaluate u ability subject = none)
    (hq : ((v.snapshot u).runFrom s).1 = .ok q) :
    ((v.check u ability subject).runFrom s).2.Remembers u q := by
  have hchecks : v.check u ability subject = v.checkRoles u ability subject := by
    rw [check, hpolicy]
  rw [hchecks]
  refine Act.Keeps.left_bind (fun p => ?_) (remembers_of_snapshot hq)
  split
  · exact (Cache.keeps_log _).bind fun _ => Act.keeps_pure _
  · exact (keeps_resolve v subject).bind fun _ => (Cache.keeps_log _).bind fun _ => Act.keeps_pure _

theorem remembers_of_authorize {ability : String}
    (hpolicy : v.policies.evaluate u ability subject = none)
    (hq : ((v.snapshot u).runFrom s).1 = .ok q) :
    ((v.authorize u ability subject).runFrom s).2.Remembers u q := by
  refine Act.Keeps.left_bind (fun allowed => ?_) (remembers_of_check hpolicy hq)
  split
  · exact Act.keeps_throw _
  · exact Act.keeps_pure _

theorem remembers_of_hasRole {name : String} {c : Context} {x : Scene}
    (hc : (v.resolve subject).runFrom s = (.ok c, x))
    (hq : ((v.snapshot u).runFrom x).1 = .ok q) :
    ((v.hasRole u name subject).runFrom s).2.Remembers u q := by
  rw [hasRole, Act.runFrom_bind_ok hc]
  exact Act.Keeps.left_bind (fun _ => Act.keeps_pure _) (remembers_of_snapshot hq)

end Service

end Clearance
