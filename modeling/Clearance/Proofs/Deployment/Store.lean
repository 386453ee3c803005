import Clearance.Deployment.Perform
import Clearance.Proofs.Assignment.Load
import Clearance.Proofs.World.Stock

/-! What engines are made of, and what commands on the shared stores change: each changes the part
of the stores that it is about. -/
namespace Clearance

namespace EngineSpec

variable {Obj : Type} {s : EngineSpec Obj} {e : Engine Obj} {events : List Event}

/-- An engine keeps the registry of its specification, and the environment of its settings. That it
is there, and perhaps that it is ready, is all that is logged. -/
theorem of_build (h : s.build = .ok (e, events)) :
    e.service.resolver.parents = .ofList s.parents ∧
      (∀ settings, s.source = .settings (some settings) →
        e.environment = some settings.environment) ∧
      ∀ event ∈ events, event = e.service.builtEvent ∨
        ∃ settings, event = Engine.readyEvent settings := by
  unfold build at h
  cases hp : (PolicyRegistry.ofList s.policies).mapError SetupError.policy with
  | error e =>
    simp only [hp] at h
    cases h
  | ok policies =>
    simp only [hp] at h
    cases hs : s.source with
    | parts cache maxDepth operations =>
      simp only [hs] at h
      cases h
      exact ⟨rfl, nofun, fun event hmem => .inl (List.mem_singleton.1 hmem)⟩
    | settings settings? =>
      cases settings? with
      | none =>
        simp only [hs] at h
        cases h
      | some settings =>
        simp only [hs, Engine.ofSettings] at h
        cases hproblem : settings.problem? with
        | some problem =>
          simp only [hproblem] at h
          cases h
        | none =>
          simp only [hproblem] at h
          cases h
          refine ⟨rfl, fun settings' he => ?_, fun event hmem => ?_⟩
          · cases he
            rfl
          · exact (List.mem_cons.1 hmem).imp_right fun hmem =>
              ⟨settings, List.mem_singleton.1 hmem⟩

end EngineSpec

namespace StoreCommand

def writesRecords : StoreCommand → Bool
  | impose _ | insertRecord _ | createRecord _ => true
  | _ => false

def changesRoles : StoreCommand → Bool
  | upsertRole .. | grant .. | ungrant .. | assign .. | unassign .. => true
  | _ => false

/-- The users of whom something else may be loaded, now that the assignments are these. -/
def affected (a : AssignmentStore) : StoreCommand → List UserId
  | upsertRole role _ | grant role _ | ungrant role _ => a.usersWithRole role
  | assign user .. | unassign user .. => [user]
  | _ => []

theorem affected_of {c : StoreCommand} (hc : c.changesRoles = false) (a : AssignmentStore) :
    c.affected a = [] := by
  cases c with
  | upsertRole | grant | ungrant | assign | unassign => cases hc
  | _ => rfl

def setsKey : StoreCommand → Bool
  | setKey .. => true
  | _ => false

variable {I : Stock → Prop}

theorem keeps_onAssignments (f : AssignmentStore → Except StorageError AssignmentStore)
    (h : ∀ k assignments, I k → I { k with assignments }) :
    (onAssignments f).Keeps fun w => I w.stock := by
  intro w hw
  unfold onAssignments
  rw [Act.runFrom_ofFun]
  cases f w.assignments with
  | ok a => exact h _ a hw
  | error e => exact hw

theorem keeps_disturb {f : World → World} (h : ∀ w, I w.stock → I (f w).stock) :
    (disturb f).Keeps fun w => I w.stock :=
  (Act.keeps_modify h).bind fun _ => Act.keeps_pure _

/-- A command keeps what no change of the kind that it makes can violate. -/
theorem keeps_perform (c : StoreCommand)
    (hrecords : c.writesRecords = true →
      ∀ k contexts imposed, I k → I { k with contexts := contexts, imposed := imposed })
    (hroles : c.changesRoles = true → ∀ k assignments, I k → I { k with assignments })
    (hset : ∀ {key value ttl}, c = .setKey key value ttl → ∀ k, I k →
      I { k with keyValues := ⟨k.keyValues.entries.insert key ⟨value, ttl⟩⟩ })
    (hdelete : ∀ {key}, c = .deleteKey key → ∀ k, I k →
      I { k with keyValues := k.keyValues.delete key }) :
    c.perform.Keeps fun w => I w.stock := by
  cases c with
  | refuse c n e => exact keeps_disturb fun _ h => h
  | hide n => exact keeps_disturb fun _ h => h
  | impose r => exact keeps_disturb fun w h => hrecords rfl w.stock w.contexts (some r) h
  | insertRecord r =>
    refine (Act.keeps_modify fun w h => ?_).bind fun _ => Act.keeps_get.bind fun _ =>
      Act.keeps_pure _
    exact hrecords rfl w.stock (w.contexts.insert r) w.disruption.imposed h
  | getRecord id =>
    exact ((World.meets_getContext id).keeps (fun _ _ h => h.1) fun _ _ h => h).bind fun _ =>
      Act.keeps_pure _
  | findRecord o =>
    exact ((World.meets_findContext o).keeps (fun _ _ h => h.1) fun _ _ h => h).bind fun _ =>
      Act.keeps_pure _
  | createRecord d =>
    refine ((World.meets_createContext (J := fun _ => I) ?_ ?_).keeps (fun _ _ h => h)
      fun _ _ h => h).bind fun _ => Act.keeps_pure _
    · exact fun k _ h _ => hrecords rfl k k.contexts none h
    · exact fun k _ contexts h _ _ => hrecords rfl k contexts k.imposed h
  | countRecords => exact Act.keeps_get.bind fun _ => Act.keeps_pure _
  | upsertRole role name => exact keeps_onAssignments _ (hroles rfl)
  | grant role permission => exact keeps_onAssignments _ (hroles rfl)
  | ungrant role permission => exact keeps_onAssignments _ (hroles rfl)
  | assign user role c => exact keeps_onAssignments _ (hroles rfl)
  | unassign user role c => exact keeps_onAssignments _ (hroles rfl)
  | usersWithRole role => exact Act.keeps_get.bind fun _ => Act.keeps_pure _
  | loadRows user =>
    exact ((World.meets_loadAssignments user).keeps (fun _ _ h => h.1) fun _ _ h => h).bind
      fun _ => Act.keeps_pure _
  | setKey key value ttl =>
    exact ((World.meets_setKey (J := I) (hset rfl)).keeps (fun _ _ h => h) fun _ _ h => h).bind
      fun _ => Act.keeps_pure _
  | getKey key =>
    exact ((World.meets_getKey key).keeps (fun _ _ h => h.1) fun _ _ h => h).bind fun _ =>
      Act.keeps_pure _
  | deleteKey key =>
    exact ((World.meets_deleteKey (J := I) (hdelete rfl)).keeps (fun _ _ h => h)
      fun _ _ h => h).bind fun _ => Act.keeps_pure _
  | hasKey key => exact Act.keeps_get.bind fun _ => Act.keeps_pure _
  | keyTtl key => exact Act.keeps_get.bind fun _ => Act.keeps_pure _

section Affected

variable {c : StoreCommand}

theorem exists_assignments_of {f : AssignmentStore → Except StorageError AssignmentStore}
    (hperform : c.perform = onAssignments f)
    (hload : ∀ a a' : AssignmentStore, f a = .ok a' →
      ∀ u, u ∉ c.affected a' → a'.load u = a.load u) (w : World) :
    ∃ a, (c.perform.runFrom w).2 = { w with assignments := a } ∧
      ∀ u, u ∉ c.affected a → a.load u = w.assignments.load u := by
  rw [hperform, onAssignments, Act.runFrom_ofFun]
  cases hf : f w.assignments with
  | error e => exact ⟨w.assignments, rfl, fun _ _ => rfl⟩
  | ok a => exact ⟨a, rfl, hload _ a hf⟩

/-- Those who hold a role still hold it when its permissions have changed. -/
theorem usersWithRole_changePermissions {a a' : AssignmentStore} {role : RoleId}
    {f : SortedSet String → SortedSet String} (h : a.changePermissions role f = .ok a') :
    a'.usersWithRole role = a.usersWithRole role := by
  unfold AssignmentStore.changePermissions at h
  split at h
  · cases h
  · cases h
    rfl

/-- A command on roles changes nothing but the assignments, and what is loaded of the users that
are not affected stays the same. -/
theorem exists_assignments (hc : c.changesRoles = true) (w : World) :
    ∃ a, (c.perform.runFrom w).2 = { w with assignments := a } ∧
      ∀ u, u ∉ c.affected a → a.load u = w.assignments.load u := by
  cases c with
  | upsertRole role name =>
    refine exists_assignments_of (f := fun s => .ok (s.upsertRole role name)) rfl
      (fun a a' h u hu => ?_) w
    cases h
    exact AssignmentStore.load_upsertRole hu
  | grant role permission =>
    refine exists_assignments_of (f := (·.grantPermission role permission)) rfl
      (fun a a' h u hu => ?_) w
    have hrole : u ∉ a.usersWithRole role := by
      rw [← usersWithRole_changePermissions h]
      exact hu
    exact AssignmentStore.load_changePermissions h hrole
  | ungrant role permission =>
    refine exists_assignments_of (f := (·.revokePermission role permission)) rfl
      (fun a a' h u hu => ?_) w
    have hrole : u ∉ a.usersWithRole role := by
      rw [← usersWithRole_changePermissions h]
      exact hu
    exact AssignmentStore.load_changePermissions h hrole
  | assign user role context =>
    refine exists_assignments_of (f := (·.assignRole user role context)) rfl
      (fun a a' h u hu => ?_) w
    have hne : u ≠ user := fun he => hu (List.mem_singleton.2 he)
    exact AssignmentStore.load_assignRole h hne
  | unassign user role context =>
    refine exists_assignments_of (f := fun s => .ok (s.revokeRole user role context)) rfl
      (fun a a' h u hu => ?_) w
    have hne : u ≠ user := fun he => hu (List.mem_singleton.2 he)
    cases h
    exact AssignmentStore.load_revokeRole hne
  | _ => cases hc

end Affected

end StoreCommand

end Clearance
