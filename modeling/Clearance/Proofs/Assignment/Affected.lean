import Clearance.Proofs.Assignment.History

/-! Whom a change of a role concerns. Those who hold a role are listed in ascending order, and what
is loaded of anyone else does not depend on the role. -/
namespace Clearance

open StoreCommand

namespace AssignmentStore

variable {past : List StoreCommand} {w : World} {c : StoreCommand} {user : UserId}

theorem pairwise_usersWithRole (s : AssignmentStore) (role : RoleId) :
    (s.usersWithRole role).Pairwise (· < ·) := by
  refine List.pairwise_map.2 ((List.Pairwise.filter _ s.holdings.ascend).imp fun hlt => ?_)
  exact compareOfLessAndEq_eq_lt.1 hlt

/-- The users that are listed for a role are those that the history assigns it to somewhere, however
many roles have been taken away again. -/
theorem Reflects.mem_usersWithRole {a : AssignmentStore} (h : a.Reflects past) {role : RoleId} :
    user ∈ a.usersWithRole role ↔ ∃ c, assigned user ⟨role, c⟩ past = true := by
  rw [AssignmentStore.mem_usersWithRole]
  constructor
  · rintro ⟨⟨_, c⟩, hx, rfl⟩
    exact ⟨c, (h.held user _).1 hx⟩
  · rintro ⟨c, hx⟩
    exact ⟨⟨role, c⟩, (h.held user _).2 hx, rfl⟩

/-- After a command on roles, carried out or failed, the same is loaded of everyone who is not
affected by it. -/
theorem load_cons (hc : c.changesRoles = true)
    (hu : user ∉ c.affected (after (c :: past) (unassigned w)).assignments) :
    (after (c :: past) (unassigned w)).assignments.load user =
      (after past (unassigned w)).assignments.load user := by
  obtain ⟨a, hw, hload⟩ := exists_assignments hc (after past (unassigned w))
  have ha : (after (c :: past) (unassigned w)).assignments = a := by
    show (c.perform.runFrom (after past (unassigned w))).2.assignments = a
    rw [hw]
  rw [ha] at hu ⊢
  exact hload user hu

/-- Whatever has been carried out from a store without roles, with or without success: the users
that are listed for a role ascend, they are those that hold the role at some context, and what is
loaded of a user that is not among them stays the same when the role is made, renamed or permits
something else. What is assigned to one user or taken from it changes what is loaded of no other. -/
theorem usersWithRole_after (past : List StoreCommand) (w : World) (role : RoleId) :
    ((after past (unassigned w)).assignments.usersWithRole role).Pairwise (· < ·) ∧
    (∀ user, user ∈ (after past (unassigned w)).assignments.usersWithRole role ↔
      ∃ c, assigned user ⟨role, c⟩ past = true) ∧
    (∀ user, user ∉ (after past (unassigned w)).assignments.usersWithRole role →
      ∀ name permission,
        ∀ c ∈ [StoreCommand.upsertRole role name, .grant role permission, .ungrant role permission],
          (after (c :: past) (unassigned w)).assignments.load user =
            (after past (unassigned w)).assignments.load user) ∧
    ∀ user v context, user ≠ v → ∀ c ∈ [StoreCommand.assign v role context, .unassign v role context],
      (after (c :: past) (unassigned w)).assignments.load user =
        (after past (unassigned w)).assignments.load user := by
  have hmem (past : List StoreCommand) (user : UserId) :
      user ∈ (after past (unassigned w)).assignments.usersWithRole role ↔
        ∃ c, assigned user ⟨role, c⟩ past = true := (reflects_after past w).mem_usersWithRole
  refine ⟨pairwise_usersWithRole _ role, hmem past, fun user hu name permission c hc => ?_,
    fun user v context hne c hc => ?_⟩
  · -- none of the three changes who holds the role
    have hu' : user ∉ (after (c :: past) (unassigned w)).assignments.usersWithRole role := by
      rw [hmem] at hu ⊢
      simp only [List.mem_cons, List.not_mem_nil, or_false] at hc
      rcases hc with rfl | rfl | rfl <;> exact hu
    simp only [List.mem_cons, List.not_mem_nil, or_false] at hc
    rcases hc with rfl | rfl | rfl <;> exact load_cons rfl hu'
  · have hu : user ∉ [v] := fun hmem => hne (List.mem_singleton.1 hmem)
    simp only [List.mem_cons, List.not_mem_nil, or_false] at hc
    rcases hc with rfl | rfl <;> exact load_cons rfl hu

/-- A role is taken from its only holder, and the entry that is left behind lists nobody. -/
example : (after [.unassign 5 1 rootId, .assign 5 1 rootId, .assign 7 2 rootId, .assign 3 2 rootId,
    .upsertRole 2 "deputy", .upsertRole 1 "editor"] World.new).assignments.usersWithRole 1 = [] :=
  by decide +kernel

end AssignmentStore

end Clearance
