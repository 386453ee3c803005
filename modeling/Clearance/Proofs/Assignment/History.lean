import Clearance.Proofs.Deployment.Store

/-! The assignment store as the relation that its history gives. What a role is called, what it
permits and who holds it where is said of the list of commands that have been carried out, and the
store says the same. -/
namespace Clearance

namespace StoreCommand

/-! Of a list of commands the latest comes first. -/

/-- What the role is called by the latest command that makes or renames it. -/
def nameOf (role : RoleId) : List StoreCommand → Option String
  | [] => none
  | upsertRole r name :: past => if r = role then some name else nameOf role past
  | _ :: past => nameOf role past

/-- Whether the permission has been granted to the role and not been taken from it since. To grant
one to a role that has not been made fails. -/
def permitted (role : RoleId) (permission : String) : List StoreCommand → Bool
  | [] => false
  | grant r p :: past =>
    if r = role ∧ p = permission then (nameOf role past).isSome else permitted role permission past
  | ungrant r p :: past =>
    if r = role ∧ p = permission then false else permitted role permission past
  | _ :: past => permitted role permission past

/-- Whether the role has been assigned to the user at the context and not been taken away since. To
assign one that has not been made fails. -/
def assigned (user : UserId) (h : Holding) : List StoreCommand → Bool
  | [] => false
  | assign u role c :: past =>
    if u = user ∧ ⟨role, c⟩ = h then (nameOf h.role past).isSome else assigned user h past
  | unassign u role c :: past => if u = user ∧ ⟨role, c⟩ = h then false else assigned user h past
  | _ :: past => assigned user h past

def after (past : List StoreCommand) (w : World) : World :=
  past.foldr (fun c w => (c.perform.runFrom w).2) w

def unassigned (w : World) : World := { w with assignments := .empty }

def revision (a : AssignmentStore) : StoreCommand → Except StorageError AssignmentStore
  | upsertRole role name => .ok (a.upsertRole role name)
  | grant role permission => a.grantPermission role permission
  | ungrant role permission => a.revokePermission role permission
  | assign user role c => a.assignRole user role c
  | unassign user role c => .ok (a.revokeRole user role c)
  | _ => .ok a

/-- Only roles that have been made are assigned. -/
theorem isSome_nameOf_of_assigned {user : UserId} {h : Holding} {past : List StoreCommand}
    (ha : assigned user h past = true) : (nameOf h.role past).isSome = true := by
  induction past with
  | nil => cases ha
  | cons c past ih =>
    cases c with
    | upsertRole r name =>
      unfold nameOf
      split
      · rfl
      · exact ih ha
    | assign u role c =>
      unfold assigned at ha
      split at ha
      · exact ha
      · exact ih ha
    | unassign u role c =>
      unfold assigned at ha
      split at ha
      · cases ha
      · exact ih ha
    | _ => exact ih ha

theorem runFrom_perform {c : StoreCommand} (hc : c.changesRoles = true) (w : World) :
    c.perform.runFrom w = match c.revision w.assignments with
      | .ok assignments => (.ok .nothing, { w with assignments })
      | .error e => (.error e, w) := by
  cases c with
  | upsertRole | grant | ungrant | assign | unassign => rfl
  | _ => cases hc

theorem revision_of {c : StoreCommand} (hc : c.changesRoles = false) (a : AssignmentStore) :
    c.revision a = .ok a := by
  cases c with
  | upsertRole | grant | ungrant | assign | unassign => cases hc
  | _ => rfl

theorem assignments_perform {c : StoreCommand} (hc : c.changesRoles = false) (w : World) :
    (c.perform.runFrom w).2.assignments = w.assignments := by
  have hkeeps := c.keeps_perform (I := fun k => k.assignments = w.assignments)
    (fun _ _ _ _ h => h) (fun h => nomatch hc.symm.trans h) (fun _ _ h => h) fun _ _ h => h
  exact hkeeps w rfl

end StoreCommand

open StoreCommand

namespace AssignmentStore

/-- The store holds what the commands say that have been carried out. -/
structure Reflects (a : AssignmentStore) (past : List StoreCommand) : Prop where
  names (role : RoleId) : (a.roles.get? role).map (·.name) = nameOf role past
  permissions (role : RoleId) (permission : String) :
    (a.roles.get? role).any (·.permissions.contains permission) = permitted role permission past
  held (user : UserId) (h : Holding) : h ∈ a.held user ↔ assigned user h past = true
  nodup (user : UserId) : (a.held user).Nodup

theorem reflects_empty : empty.Reflects [] where
  names _ := rfl
  permissions _ _ := rfl
  held _ _ := ⟨fun hmem => absurd hmem List.not_mem_nil, nofun⟩
  nodup _ := .nil

namespace Reflects

variable {a : AssignmentStore} {past : List StoreCommand} {c : StoreCommand} {role : RoleId}

theorem keep (h : a.Reflects past) (hname : ∀ r, nameOf r (c :: past) = nameOf r past)
    (hpermitted : ∀ r p, permitted r p (c :: past) = permitted r p past)
    (hassigned : ∀ u x, assigned u x (c :: past) = assigned u x past) : a.Reflects (c :: past) where
  names r := (h.names r).trans (hname r).symm
  permissions r p := (h.permissions r p).trans (hpermitted r p).symm
  held u x := (h.held u x).trans (by rw [hassigned])
  nodup := h.nodup

theorem insertRole (h : a.Reflects past) {r : Role} (hname : nameOf role (c :: past) = some r.name)
    (hpermitted : ∀ p, permitted role p (c :: past) = r.permissions.contains p)
    (hothers : ∀ r', r' ≠ role → nameOf r' (c :: past) = nameOf r' past ∧
      ∀ p, permitted r' p (c :: past) = permitted r' p past)
    (hassigned : ∀ u x, assigned u x (c :: past) = assigned u x past) :
    Reflects { a with roles := a.roles.insert role r } (c :: past) where
  names r' := by
    by_cases hr : r' = role
    · rw [hr, SortedMap.get?_insert_self, hname, Option.map_some]
    · rw [SortedMap.get?_insert_of_ne _ _ hr, (hothers r' hr).1, h.names]
  permissions r' p := by
    by_cases hr : r' = role
    · rw [hr, SortedMap.get?_insert_self, hpermitted, Option.any_some]
    · rw [SortedMap.get?_insert_of_ne _ _ hr, (hothers r' hr).2, h.permissions]
  held u x := (h.held u x).trans (by rw [hassigned])
  nodup := h.nodup

theorem insertHoldings (h : a.Reflects past) {user : UserId} {l : List Holding}
    (hheld : ∀ x, x ∈ l ↔ assigned user x (c :: past) = true) (hnodup : l.Nodup)
    (hothers : ∀ u x, u ≠ user → assigned u x (c :: past) = assigned u x past)
    (hname : ∀ r, nameOf r (c :: past) = nameOf r past)
    (hpermitted : ∀ r p, permitted r p (c :: past) = permitted r p past) :
    Reflects { a with holdings := a.holdings.insert user l } (c :: past) where
  names r := (h.names r).trans (hname r).symm
  permissions r p := (h.permissions r p).trans (hpermitted r p).symm
  held u x := by
    by_cases hu : u = user
    · rw [hu, AssignmentStore.held, SortedMap.get?_insert_self, Option.getD_some]
      exact hheld x
    · rw [held_eq_of_get? (SortedMap.get?_insert_of_ne _ _ hu), hothers u x hu]
      exact h.held u x
  nodup u := by
    by_cases hu : u = user
    · rw [hu, AssignmentStore.held, SortedMap.get?_insert_self, Option.getD_some]
      exact hnodup
    · rw [held_eq_of_get? (SortedMap.get?_insert_of_ne _ _ hu)]
      exact h.nodup u

theorem isSome_nameOf (h : a.Reflects past) (role : RoleId) :
    (nameOf role past).isSome = a.roles.contains role := by
  rw [← h.names, Option.isSome_map]
  rfl

theorem upsertRole (h : a.Reflects past) (role : RoleId) (name : String) :
    (a.upsertRole role name).Reflects (.upsertRole role name :: past) := by
  refine h.insertRole ?_ (fun p => ?_) (fun r hr => ?_) fun _ _ => rfl
  · rw [nameOf, if_pos rfl]
    cases a.roles.get? role <;> rfl
  · have hold : permitted role p (.upsertRole role name :: past) = permitted role p past := rfl
    rw [hold, ← h.permissions]
    cases a.roles.get? role <;> rfl
  · rw [nameOf, if_neg fun he => hr he.symm]
    exact ⟨rfl, fun _ => rfl⟩

theorem changePermissions (h : a.Reflects past) {f : SortedSet String → SortedSet String}
    (hname : ∀ r, nameOf r (c :: past) = nameOf r past)
    (hpermitted : ∀ p r, a.roles.get? role = some r →
      permitted role p (c :: past) = (f r.permissions).contains p)
    (hunmade : a.roles.get? role = none → ∀ p, permitted role p (c :: past) = false)
    (hothers : ∀ r p, r ≠ role → permitted r p (c :: past) = permitted r p past)
    (hassigned : ∀ u x, assigned u x (c :: past) = assigned u x past) :
    match a.changePermissions role f with
    | .ok a' => a'.Reflects (c :: past)
    | .error _ => a.Reflects (c :: past) := by
  unfold AssignmentStore.changePermissions
  cases hr : a.roles.get? role with
  | none =>
    refine h.keep hname (fun r p => ?_) hassigned
    by_cases he : r = role
    · rw [he, hunmade hr, ← h.permissions, hr]
      rfl
    · exact hothers r p he
  | some r =>
    refine h.insertRole ?_ (fun p => hpermitted p r hr) (fun r' hne => ?_) hassigned
    · rw [hname, ← h.names, hr]
      rfl
    · exact ⟨hname r', fun p => hothers r' p hne⟩

theorem grantPermission (h : a.Reflects past) (role : RoleId) (permission : String) :
    match a.grantPermission role permission with
    | .ok a' => a'.Reflects (.grant role permission :: past)
    | .error _ => a.Reflects (.grant role permission :: past) := by
  refine h.changePermissions (fun _ => rfl) (fun p r hr => ?_) (fun hr p => ?_) (fun r p hne => ?_)
    fun _ _ => rfl
  · have hold := h.permissions role p
    rw [hr, Option.any_some] at hold
    unfold permitted
    by_cases hp : permission = p
    · rw [if_pos ⟨rfl, hp⟩, ← h.names, hr, hp, SortedSet.contains_insert_self]
      rfl
    · rw [if_neg fun he => hp he.2, SortedSet.contains_insert_of_ne _ (Ne.symm hp), hold]
  · unfold permitted
    split
    · rw [← h.names, hr]
      rfl
    · rw [← h.permissions, hr]
      rfl
  · rw [permitted, if_neg fun he => hne he.1.symm]

theorem revokePermission (h : a.Reflects past) (role : RoleId) (permission : String) :
    match a.revokePermission role permission with
    | .ok a' => a'.Reflects (.ungrant role permission :: past)
    | .error _ => a.Reflects (.ungrant role permission :: past) := by
  refine h.changePermissions (fun _ => rfl) (fun p r hr => ?_) (fun hr p => ?_) (fun r p hne => ?_)
    fun _ _ => rfl
  · have hold := h.permissions role p
    rw [hr, Option.any_some] at hold
    unfold permitted
    by_cases hp : permission = p
    · rw [if_pos ⟨rfl, hp⟩, hp, SortedSet.contains_erase_self]
    · rw [if_neg fun he => hp he.2, SortedSet.contains_erase_of_ne _ (Ne.symm hp), hold]
  · unfold permitted
    split
    · rfl
    · rw [← h.permissions, hr]
      rfl
  · rw [permitted, if_neg fun he => hne he.1.symm]

theorem assignRole (h : a.Reflects past) (user : UserId) (role : RoleId) (context : ContextId) :
    match a.assignRole user role context with
    | .ok a' => a'.Reflects (.assign user role context :: past)
    | .error _ => a.Reflects (.assign user role context :: past) := by
  have hnew (u : UserId) (x : Holding) (hne : ¬(user = u ∧ ⟨role, context⟩ = x)) :
      assigned u x (.assign user role context :: past) = assigned u x past := by
    rw [assigned, if_neg hne]
  have hmade := h.isSome_nameOf role
  unfold AssignmentStore.assignRole
  cases hrole : a.roles.contains role with
  | false =>
    refine h.keep (fun _ => rfl) (fun _ _ => rfl) fun u x => ?_
    by_cases he : user = u ∧ ⟨role, context⟩ = x
    · obtain ⟨rfl, rfl⟩ := he
      rw [hrole] at hmade
      have hunassigned : assigned user ⟨role, context⟩ past ≠ true := fun ha =>
        Bool.false_ne_true (hmade.symm.trans (isSome_nameOf_of_assigned ha))
      rw [assigned, if_pos ⟨rfl, rfl⟩, hmade, Bool.eq_false_iff.2 hunassigned]
    · exact hnew u x he
  | true =>
    rw [hrole] at hmade
    by_cases hmem : ⟨role, context⟩ ∈ a.held user
    · simp only [Bool.not_true, Bool.false_eq_true, if_false, if_pos hmem]
      refine h.insertHoldings (fun x => ?_) (h.nodup user)
        (fun u x hne => hnew u x fun he => hne he.1.symm) (fun _ => rfl) fun _ _ => rfl
      by_cases he : ⟨role, context⟩ = x
      · subst he
        rw [assigned, if_pos ⟨rfl, rfl⟩, hmade]
        exact ⟨fun _ => rfl, fun _ => hmem⟩
      · rw [hnew user x fun h => he h.2]
        exact h.held user x
    · simp only [Bool.not_true, Bool.false_eq_true, if_false, if_neg hmem]
      refine h.insertHoldings (fun x => ?_) ?_
        (fun u x hne => hnew u x fun he => hne he.1.symm) (fun _ => rfl) fun _ _ => rfl
      · by_cases he : ⟨role, context⟩ = x
        · subst he
          rw [assigned, if_pos ⟨rfl, rfl⟩, hmade]
          simp
        · rw [hnew user x fun h => he h.2, ← h.held user x]
          simp [Ne.symm he]
      · refine List.nodup_append.2 ⟨h.nodup user, List.pairwise_singleton _ _, ?_⟩
        rintro x hx y hy rfl
        exact hmem (List.mem_singleton.1 hy ▸ hx)

theorem revokeRole (h : a.Reflects past) (user : UserId) (role : RoleId) (context : ContextId) :
    (a.revokeRole user role context).Reflects (.unassign user role context :: past) := by
  have hnew (u : UserId) (x : Holding) (hne : ¬(user = u ∧ ⟨role, context⟩ = x)) :
      assigned u x (.unassign user role context :: past) = assigned u x past := by
    rw [assigned, if_neg hne]
  unfold AssignmentStore.revokeRole
  cases hl : a.holdings.get? user with
  | none =>
    refine h.keep (fun _ => rfl) (fun _ _ => rfl) fun u x => ?_
    by_cases he : user = u ∧ ⟨role, context⟩ = x
    · obtain ⟨rfl, rfl⟩ := he
      have hnone : a.held user = [] := by rw [AssignmentStore.held, hl, Option.getD_none]
      have hunassigned : assigned user ⟨role, context⟩ past ≠ true := fun ha =>
        List.not_mem_nil (hnone ▸ (h.held user _).2 ha)
      rw [assigned, if_pos ⟨rfl, rfl⟩, Bool.eq_false_iff.2 hunassigned]
    · exact hnew u x he
  | some l =>
    have hheld : a.held user = l := by rw [AssignmentStore.held, hl, Option.getD_some]
    refine h.insertHoldings (fun x => ?_) ((hheld ▸ h.nodup user).filter _)
      (fun u x hne => hnew u x fun he => hne he.1.symm) (fun _ => rfl) fun _ _ => rfl
    by_cases he : ⟨role, context⟩ = x
    · subst he
      rw [assigned, if_pos ⟨rfl, rfl⟩]
      simp
    · rw [hnew user x fun h => he h.2, ← h.held user x, hheld]
      simp [Ne.symm he]

/-- A command changes the store as it changes the history, and one that fails changes neither. -/
theorem next (h : a.Reflects past) (c : StoreCommand) : match c.revision a with
    | .ok a' => a'.Reflects (c :: past)
    | .error _ => a.Reflects (c :: past) := by
  cases c with
  | upsertRole role name => exact h.upsertRole role name
  | grant role permission => exact h.grantPermission role permission
  | ungrant role permission => exact h.revokePermission role permission
  | assign user role context => exact h.assignRole user role context
  | unassign user role context => exact h.revokeRole user role context
  | _ => exact h.keep (fun _ => rfl) (fun _ _ => rfl) fun _ _ => rfl

/-- What fails is about a role that has not been made. -/
theorem of_revision_error (h : a.Reflects past) {e : StorageError} (he : c.revision a = .error e) :
    ∃ role, e = .roleNotFound role ∧ nameOf role past = none := by
  have hunmade {role : RoleId} (hr : a.roles.get? role = none) : nameOf role past = none := by
    rw [← h.names, hr, Option.map_none]
  have hchange {role : RoleId} {f : SortedSet String → SortedSet String}
      (he : a.changePermissions role f = .error e) :
      ∃ role, e = .roleNotFound role ∧ nameOf role past = none := by
    unfold AssignmentStore.changePermissions at he
    split at he
    · next hr =>
      cases he
      exact ⟨role, rfl, hunmade hr⟩
    · cases he
  cases c with
  | grant role permission => exact hchange (f := (·.insert permission)) he
  | ungrant role permission => exact hchange (f := (·.erase permission)) he
  | assign user role context =>
    rw [revision, AssignmentStore.assignRole] at he
    split at he
    · next hr =>
      cases he
      refine ⟨role, rfl, hunmade ?_⟩
      simpa [SortedMap.contains] using hr
    · cases he
  | _ => cases he

end Reflects

/-- Whatever has been carried out, the store holds what the commands say. -/
theorem reflects_after (past : List StoreCommand) (w : World) :
    (after past (unassigned w)).assignments.Reflects past := by
  induction past with
  | nil => exact reflects_empty
  | cons c past ih =>
    have hnext := ih.next c
    show (c.perform.runFrom (after past _)).2.assignments.Reflects _
    cases hc : c.changesRoles with
    | false =>
      rw [assignments_perform hc]
      rw [revision_of hc] at hnext
      exact hnext
    | true =>
      rw [runFrom_perform hc]
      cases hr : c.revision (after past (unassigned w)).assignments with
      | ok a =>
        rw [hr] at hnext
        exact hnext
      | error e =>
        rw [hr] at hnext
        exact hnext

end AssignmentStore

end Clearance
