import Clearance.Error
import Clearance.Sorted.Set

/-! Roles with their permissions, and who holds which role where. -/
namespace Clearance

structure Role where
  name : String
  permissions : SortedSet String
  deriving DecidableEq

structure Holding where
  role : RoleId
  context : ContextId
  deriving DecidableEq

/-- One holding of a user, with what its role is called and permits. -/
structure Row where
  role : RoleId
  roleName : String
  context : ContextId
  permissions : List String
  deriving DecidableEq

structure AssignmentStore where
  roles : SortedMap RoleId Role
  /-- The holdings of each user, the oldest first. -/
  holdings : SortedMap UserId (List Holding)

namespace AssignmentStore

def empty : AssignmentStore := ⟨.empty, .empty⟩

def held (s : AssignmentStore) (user : UserId) : List Holding := (s.holdings.get? user).getD []

/-- Makes a role or renames it; a renamed role keeps its permissions. -/
def upsertRole (s : AssignmentStore) (role : RoleId) (name : String) : AssignmentStore :=
  let r : Role := match s.roles.get? role with
    | some r => { r with name }
    | none => ⟨name, .empty⟩
  { s with roles := s.roles.insert role r }

def changePermissions (s : AssignmentStore) (role : RoleId)
    (f : SortedSet String → SortedSet String) : Except StorageError AssignmentStore :=
  match s.roles.get? role with
  | none => .error (.roleNotFound role)
  | some r => .ok { s with roles := s.roles.insert role { r with permissions := f r.permissions } }

def grantPermission (s : AssignmentStore) (role : RoleId) (permission : String) :
    Except StorageError AssignmentStore :=
  s.changePermissions role (·.insert permission)

def revokePermission (s : AssignmentStore) (role : RoleId) (permission : String) :
    Except StorageError AssignmentStore :=
  s.changePermissions role (·.erase permission)

/-- Holding a role twice at one context is holding it once. -/
def assignRole (s : AssignmentStore) (user : UserId) (role : RoleId) (context : ContextId) :
    Except StorageError AssignmentStore :=
  if !s.roles.contains role then .error (.roleNotFound role)
  else
    let held := s.held user
    let held := if ⟨role, context⟩ ∈ held then held else held ++ [⟨role, context⟩]
    .ok { s with holdings := s.holdings.insert user held }

def revokeRole (s : AssignmentStore) (user : UserId) (role : RoleId) (context : ContextId) :
    AssignmentStore :=
  match s.holdings.get? user with
  | none => s
  | some held =>
    { s with holdings := s.holdings.insert user (held.filter (· ≠ ⟨role, context⟩)) }

def usersWithRole (s : AssignmentStore) (role : RoleId) : List UserId :=
  (s.holdings.entries.filter fun e => e.2.any (·.role = role)).map (·.1)

/-- The rows of a user in the order in which the roles were assigned. -/
def load (s : AssignmentStore) (user : UserId) : Except StorageError (List Row) :=
  (s.held user).mapM fun h =>
    match s.roles.get? h.role with
    | none => .error (.roleNotFound h.role)
    | some r => .ok ⟨h.role, r.name, h.context, r.permissions.toList⟩

end AssignmentStore

end Clearance
