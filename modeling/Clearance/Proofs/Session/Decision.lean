import Clearance.Proofs.Assignment.Load
import Clearance.Proofs.Invariant
import Clearance.Proofs.Resolver.Outlook

/-! What a check answers. Unless a policy decides, the answer follows from one snapshot of the user
and from the context of the subject as it is resolved without any cache. -/
namespace Clearance

namespace Snapshot

/-- Whether a user with this snapshot may do something to a subject whose context is `c`. -/
def allows (p : Snapshot) (ability : String) (c : Context) : Bool :=
  c.ancestors.any fun id => p.permits id ability

theorem isSome_findPermission (p : Snapshot) (ability : String) (c : Context) :
    (p.findPermission c.ancestors ability).isSome = p.allows ability c := by
  rw [Bool.eq_iff_iff, allows, findPermission, List.find?_isSome, List.any_eq_true]
  rfl

end Snapshot

/-- Whether a role of the user has the permission at the context or above it. -/
def AssignmentStore.allows (a : AssignmentStore) (user : UserId) (ability : String)
    (c : Context) : Bool := c.ancestors.any fun id => a.permits user ability id

theorem AssignmentStore.allows_of_load {a : AssignmentStore} {user : UserId} {rows : List Row}
    (h : a.load user = .ok rows) (ability : String) (c : Context) :
    (Snapshot.ofRows rows).allows ability c = a.allows user ability c := by
  unfold Snapshot.allows allows
  congr 1
  funext id
  exact permits_of_load h id ability

theorem AssignmentStore.isSuperAdmin_of_load {a : AssignmentStore} {user : UserId}
    {rows : List Row} (h : a.load user = .ok rows) :
    (Snapshot.ofRows rows).isSuperAdmin = a.holdsRole user Snapshot.superAdmin rootId := by
  rw [Snapshot.isSuperAdmin_eq_holds]
  exact holds_of_load h rootId Snapshot.superAdmin

namespace Service

variable {Obj : Type} [DomainObject Obj]

/-- The context of the subject, as it is found or made from here. -/
def contextFrom (v : Service Obj) (a : Atlas) (subject : Subject Obj) : Except Error Context :=
  ((v.resolver.resolve subject).runFrom a).1

def answer (v : Service Obj) (a : Atlas) (p : Snapshot) (ability : String)
    (subject : Subject Obj) : Except Error Bool :=
  if p.isSuperAdmin then .ok true else (v.contextFrom a subject).map (p.allows ability)

/-- What the stores say when no snapshot of any user is cached. -/
def decision (v : Service Obj) (a : Atlas) (user : UserId) (ability : String)
    (subject : Subject Obj) : Except Error Bool :=
  match v.policies.evaluate user ability subject with
  | some .allow => .ok true
  | some .deny => .ok false
  | some (.denyBecause reason) => .error (.denied ability (some reason))
  | none =>
    if a.world.assignments.holdsRole user Snapshot.superAdmin rootId then .ok true
    else (v.contextFrom a subject).map (a.world.assignments.allows user ability)

variable {v : Service Obj} {user : UserId} {ability : String} {subject : Subject Obj}
  {s s' : Scene} {b : Bool}

theorem context_after_snapshot {p : Snapshot} {s₁ s₂ : Scene} {c : Context}
    (hp : (v.snapshot user).runFrom s = (.ok p, s₁))
    (hc : (v.resolve subject).runFrom s₁ = (.ok c, s₂)) :
    v.contextFrom s.toAtlas subject = .ok c := by
  have hlook : s.outlook = s₁.outlook := by
    have hleft := v.leaves_snapshot user s
    rw [hp] at hleft
    exact hleft.symm
  have hsame := (Resolver.within_resolve v.resolver subject s.toAtlas s₁.toAtlas hlook).1
  have hok : ((v.resolver.resolve subject).runFrom s₁.toAtlas).1 = .ok c := congrArg Prod.fst hc
  exact hsame.trans hok

theorem exists_snapshot_of_checkRoles
    (h : (v.checkRoles user ability subject).runFrom s = (.ok b, s')) :
    ∃ p s₁, (v.snapshot user).runFrom s = (.ok p, s₁) ∧
      v.answer s.toAtlas p ability subject = .ok b := by
  obtain ⟨p, s₁, hp, h⟩ := Act.ok_of_bind h
  refine ⟨p, s₁, hp, ?_⟩
  unfold answer
  by_cases hsuper : p.isSuperAdmin = true
  · rw [if_pos hsuper] at h ⊢
    cases h
    rfl
  · rw [if_neg hsuper] at h ⊢
    obtain ⟨c, s₂, hc, h⟩ := Act.ok_of_bind h
    have hsome := p.isSome_findPermission ability c
    cases h
    rw [context_after_snapshot hp hc, hsome]
    rfl

/-- Under an invariant the snapshot that a check is answered from is one that may be kept. -/
theorem kept_of_check {I : Invariant Obj} (hI : I.Sound) (hs : I.OnScene s)
    (hpolicy : v.policies.evaluate user ability subject = none)
    (h : (v.check user ability subject).runFrom s = (.ok b, s')) :
    ∃ p, I.kept user p ∧ v.answer s.toAtlas p ability subject = .ok b := by
  rw [check, hpolicy] at h
  obtain ⟨p, s₁, hp, hanswer⟩ := exists_snapshot_of_checkRoles h
  exact ⟨p, ((hI.yields_snapshot v user).ok hs hp).2, hanswer⟩

theorem decision_of_policy {a : Atlas} {response : Response}
    (hpolicy : v.policies.evaluate user ability subject = some response)
    (h : (v.check user ability subject).runFrom s = (.ok b, s')) :
    v.decision a user ability subject = .ok b := by
  rw [check, hpolicy] at h
  rw [decision, hpolicy]
  cases response with
  | allow =>
    cases h
    rfl
  | deny =>
    cases h
    rfl
  | denyBecause reason => cases h

theorem answer_of_load {a : Atlas} {rows : List Row}
    (hpolicy : v.policies.evaluate user ability subject = none)
    (h : a.world.assignments.load user = .ok rows) :
    v.answer a (.ofRows rows) ability subject = v.decision a user ability subject := by
  have hallows : (Snapshot.ofRows rows).allows ability =
      a.world.assignments.allows user ability := by
    funext c
    exact AssignmentStore.allows_of_load h ability c
  rw [answer, decision, hpolicy, AssignmentStore.isSuperAdmin_of_load h, hallows]

end Service

end Clearance
