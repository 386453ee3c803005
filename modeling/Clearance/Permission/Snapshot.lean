import Clearance.Assignment.Store
import Clearance.Context.Basic

/-! All roles and permissions of one user, by context. -/
namespace Clearance

structure Grants where
  roles : SortedMap RoleId String
  permissions : SortedSet String
  deriving DecidableEq

namespace Grants

def empty : Grants := ⟨.empty, .empty⟩

def hasRole (g : Grants) (name : String) : Bool := g.roles.values.contains name

def hasPermission (g : Grants) (permission : String) : Bool := g.permissions.contains permission

def add (g : Grants) (role : RoleId) (name : String) (permissions : List String) : Grants where
  roles := g.roles.insert role name
  permissions := g.permissions.insertMany permissions

end Grants

structure Snapshot where
  contexts : SortedMap ContextId Grants
  deriving DecidableEq

namespace Snapshot

def empty : Snapshot := ⟨.empty⟩

def at? (s : Snapshot) (c : ContextId) : Option Grants := s.contexts.get? c

def size (s : Snapshot) : Nat := s.contexts.size

/-- Adds a role, under its latest name, and permissions to what is held at a context. -/
def grant (s : Snapshot) (c : ContextId) (role : RoleId) (name : String)
    (permissions : List String) : Snapshot :=
  ⟨s.contexts.insert c (((s.at? c).getD .empty).add role name permissions)⟩

def addRow (s : Snapshot) (r : Row) : Snapshot := s.grant r.context r.role r.roleName r.permissions

def ofRows (rows : List Row) : Snapshot := rows.foldl addRow empty

def findPermission (s : Snapshot) (ancestors : List ContextId) (permission : String) :
    Option ContextId :=
  ancestors.find? fun c => (s.at? c).any (·.hasPermission permission)

def findRole (s : Snapshot) (ancestors : List ContextId) (name : String) : Option ContextId :=
  ancestors.find? fun c => (s.at? c).any (·.hasRole name)

/-- The name of the role that permits everything where it is held at the root. -/
def superAdmin : String := "super-admin"

def isSuperAdmin (s : Snapshot) : Bool := (s.at? rootId).any (·.hasRole superAdmin)

/-- What a user appears to hold who acts as a super-admin without any assignment. -/
def ofSuperAdmin : Snapshot := empty.grant rootId 0 superAdmin []

end Snapshot

end Clearance
