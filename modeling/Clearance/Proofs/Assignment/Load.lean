import Clearance.Proofs.Permission.Rows

/-! What is loaded for a user. It says of the user what the stored roles and holdings say, and a
change of a role reaches no user that does not hold the role. -/
namespace Clearance

theorem mem_of_mapM_ok {ε α β : Type} {f : α → Except ε β} {l : List α} {ys : List β}
    (h : l.mapM f = .ok ys) {y : β} : y ∈ ys ↔ ∃ x ∈ l, f x = .ok y := by
  induction l generalizing ys with
  | nil =>
    cases h
    simp
  | cons x l ih =>
    rw [List.mapM_cons] at h
    cases hx : f x with
    | error e =>
      rw [hx] at h
      cases h
    | ok z =>
      cases hl : l.mapM f with
      | error e =>
        rw [hx, hl] at h
        cases h
      | ok zs =>
        rw [hx, hl] at h
        cases h
        simp [ih hl, hx, eq_comm]

theorem mapM_congr {ε α β : Type} {f g : α → Except ε β} {l : List α}
    (h : ∀ x ∈ l, f x = g x) : l.mapM f = l.mapM g := by
  induction l with
  | nil => rfl
  | cons x l ih =>
    rw [List.forall_mem_cons] at h
    rw [List.mapM_cons, List.mapM_cons, h.1, ih h.2]

namespace AssignmentStore

def holdsRole (s : AssignmentStore) (user : UserId) (name : String) (c : ContextId) : Bool :=
  (s.held user).any fun x => x.context = c && (s.roles.get? x.role).any (·.name = name)

def permits (s : AssignmentStore) (user : UserId) (permission : String) (c : ContextId) : Bool :=
  (s.held user).any fun x =>
    x.context = c && (s.roles.get? x.role).any (·.permissions.contains permission)

def rowOf (s : AssignmentStore) (x : Holding) : Except StorageError Row :=
  match s.roles.get? x.role with
  | none => .error (.roleNotFound x.role)
  | some r => .ok ⟨x.role, r.name, x.context, r.permissions.toList⟩

variable {s s' : AssignmentStore} {user : UserId} {rows : List Row}

theorem load_eq (s : AssignmentStore) (user : UserId) :
    s.load user = (s.held user).mapM s.rowOf := rfl

theorem rowOf_eq_ok {x : Holding} {row : Row} : s.rowOf x = .ok row ↔ ∃ r,
    s.roles.get? x.role = some r ∧ row = ⟨x.role, r.name, x.context, r.permissions.toList⟩ := by
  unfold rowOf
  cases s.roles.get? x.role with
  | none => simp
  | some r => simp [eq_comm]

theorem mem_load (h : s.load user = .ok rows) {row : Row} : row ∈ rows ↔ ∃ x ∈ s.held user, ∃ r,
    s.roles.get? x.role = some r ∧ row = ⟨x.role, r.name, x.context, r.permissions.toList⟩ := by
  rw [load_eq] at h
  simp only [mem_of_mapM_ok h, rowOf_eq_ok]

/-- The snapshot permits at a context what the roles permit that the user holds there. -/
theorem permits_of_load (h : s.load user = .ok rows) (c : ContextId) (permission : String) :
    (Snapshot.ofRows rows).permits c permission = s.permits user permission c := by
  have hiff : s.permits user permission c = true ↔ ∃ x ∈ s.held user, x.context = c ∧
      ∃ r, s.roles.get? x.role = some r ∧ r.permissions.contains permission = true := by
    simp [permits, Option.any_eq_true]
  rw [Bool.eq_iff_iff, Snapshot.permits_ofRows, hiff]
  constructor
  · rintro ⟨row, hrow, rfl, hp⟩
    obtain ⟨x, hx, r, hr, rfl⟩ := (mem_load h).1 hrow
    exact ⟨x, hx, rfl, r, hr, SortedSet.mem_toList.1 hp⟩
  · rintro ⟨x, hx, rfl, r, hr, hp⟩
    exact ⟨_, (mem_load h).2 ⟨x, hx, r, hr, rfl⟩, rfl, SortedSet.mem_toList.2 hp⟩

theorem holds_of_load (h : s.load user = .ok rows) (c : ContextId) (name : String) :
    (Snapshot.ofRows rows).holds c name = s.holdsRole user name c := by
  have hiff : s.holdsRole user name c = true ↔ ∃ x ∈ s.held user, x.context = c ∧
      ∃ r, s.roles.get? x.role = some r ∧ r.name = name := by
    simp [holdsRole, Option.any_eq_true]
  rw [Bool.eq_iff_iff, Snapshot.holds_iff, hiff]
  simp only [Snapshot.roleName?_ofRows, Option.map_eq_some_iff]
  constructor
  · rintro ⟨role, row, hlast, rfl⟩
    obtain ⟨hrow, hat⟩ := List.mem_filter.1 (List.mem_of_getLast? hlast)
    obtain ⟨x, hx, r, hr, rfl⟩ := (mem_load h).1 hrow
    exact ⟨x, hx, (of_decide_eq_true hat).1, r, hr, rfl⟩
  · rintro ⟨x, hx, rfl, r, hr, rfl⟩
    -- the last row of that role at the context comes from the same role
    have hrow := (mem_load h).2 ⟨x, hx, r, hr, rfl⟩
    have hne : (rows.filter fun r => r.context = x.context ∧ r.role = x.role) ≠ [] :=
      List.ne_nil_of_mem (List.mem_filter.2 ⟨hrow, by simp⟩)
    obtain ⟨row, hlast⟩ := Option.isSome_iff_exists.1 (List.getLast?_isSome.2 hne)
    obtain ⟨hmem, hat⟩ := List.mem_filter.1 (List.mem_of_getLast? hlast)
    obtain ⟨y, hy, r', hr', rfl⟩ := (mem_load h).1 hmem
    have hrole : y.role = x.role := (of_decide_eq_true hat).2
    rw [hrole, hr] at hr'
    cases hr'
    exact ⟨x.role, _, hlast, rfl⟩

/-- The snapshot is what the store says of the user. -/
def Yields (s : AssignmentStore) (user : UserId) (p : Snapshot) : Prop :=
  ∃ rows, s.load user = .ok rows ∧ p = .ofRows rows

section Frame

/-- What is loaded depends on the holdings of the user and on their roles. -/
theorem load_congr (hheld : s'.held user = s.held user)
    (hroles : ∀ x ∈ s.held user, s'.roles.get? x.role = s.roles.get? x.role) :
    s'.load user = s.load user := by
  rw [load_eq, load_eq, hheld]
  apply mapM_congr
  intro x hx
  rw [rowOf, rowOf, hroles x hx]

theorem held_eq_of_get? {v : UserId} (h : s'.holdings.get? v = s.holdings.get? v) :
    s'.held v = s.held v := by
  rw [held, held, h]

theorem mem_usersWithRole {role : RoleId} :
    user ∈ s.usersWithRole role ↔ ∃ x ∈ s.held user, x.role = role := by
  have hheld : ∀ {l}, s.holdings.get? user = some l → s.held user = l := fun h => by
    rw [held, h]
    rfl
  simp only [usersWithRole, List.mem_map, List.mem_filter, Prod.exists, List.any_eq_true,
    decide_eq_true_eq]
  constructor
  · rintro ⟨_, l, ⟨he, x, hx, hr⟩, rfl⟩
    exact ⟨x, hheld ((SortedMap.mem_entries_iff _).1 he) ▸ hx, hr⟩
  · rintro ⟨x, hx, hr⟩
    cases hl : s.holdings.get? user with
    | none =>
      rw [held, hl] at hx
      cases hx
    | some l =>
      rw [hheld hl] at hx
      exact ⟨user, l, ⟨(SortedMap.mem_entries_iff _).2 hl, x, hx, hr⟩, rfl⟩

/-- A store in which one role differs loads the same for everyone who does not hold that role. -/
theorem load_of_role {role : RoleId} (hholdings : s'.holdings = s.holdings)
    (hroles : ∀ r, r ≠ role → s'.roles.get? r = s.roles.get? r)
    (hu : user ∉ s.usersWithRole role) : s'.load user = s.load user := by
  refine load_congr (held_eq_of_get? (by rw [hholdings])) fun x hx => hroles _ ?_
  rintro rfl
  exact hu (mem_usersWithRole.2 ⟨x, hx, rfl⟩)

theorem load_of_user {v : UserId} (hroles : s'.roles = s.roles)
    (hholdings : ∀ w, w ≠ v → s'.holdings.get? w = s.holdings.get? w) (hu : user ≠ v) :
    s'.load user = s.load user :=
  load_congr (held_eq_of_get? (hholdings user hu)) fun _ _ => by rw [hroles]

theorem load_upsertRole {role : RoleId} {name : String} (hu : user ∉ s.usersWithRole role) :
    (s.upsertRole role name).load user = s.load user :=
  load_of_role rfl (fun _ hr => SortedMap.get?_insert_of_ne _ _ hr) hu

theorem load_changePermissions {role : RoleId} {f : SortedSet String → SortedSet String}
    (h : s.changePermissions role f = .ok s') (hu : user ∉ s.usersWithRole role) :
    s'.load user = s.load user := by
  unfold changePermissions at h
  split at h
  · cases h
  · cases h
    exact load_of_role rfl (fun _ hr => SortedMap.get?_insert_of_ne _ _ hr) hu

theorem load_assignRole {v : UserId} {role : RoleId} {c : ContextId}
    (h : s.assignRole v role c = .ok s') (hu : user ≠ v) : s'.load user = s.load user := by
  unfold assignRole at h
  split at h
  · cases h
  · cases h
    exact load_of_user rfl (fun _ hw => SortedMap.get?_insert_of_ne _ _ hw) hu

theorem load_revokeRole {v : UserId} {role : RoleId} {c : ContextId} (hu : user ≠ v) :
    (s.revokeRole v role c).load user = s.load user := by
  unfold revokeRole
  split
  · rfl
  · exact load_of_user rfl (fun _ hw => SortedMap.get?_insert_of_ne _ _ hw) hu

end Frame

end AssignmentStore

end Clearance
