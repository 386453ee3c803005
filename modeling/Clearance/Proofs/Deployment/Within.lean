import Clearance.Proofs.Deployment.Coherence
import Clearance.Proofs.Permission.Canonical

/-! Which contexts roles and snapshots are about. What is held is held at the contexts at which roles
have been assigned, and a cached snapshot speaks of no other ones, however old it is. -/
namespace Clearance

variable {P Q : ContextId → Prop}

namespace Snapshot

/-- The snapshot speaks of these contexts only. -/
def Within (P : ContextId → Prop) (p : Snapshot) : Prop := ∀ c, (p.at? c).isSome = true → P c

theorem within_ofRows {rows : List Row} (h : ∀ r ∈ rows, P r.context) : (ofRows rows).Within P := by
  intro c hc
  obtain ⟨r, hr, rfl⟩ := (isSome_at?_ofRows rows c).1 hc
  exact h r hr

theorem within_ofSuperAdmin (h : P rootId) : ofSuperAdmin.Within P := by
  have hrows : ofSuperAdmin = ofRows [⟨0, superAdmin, rootId, []⟩] := rfl
  rw [hrows]
  refine within_ofRows fun r hr => ?_
  rw [List.mem_singleton.1 hr]
  exact h

end Snapshot

namespace AssignmentStore

def Within (P : ContextId → Prop) (a : AssignmentStore) : Prop :=
  ∀ u, ∀ x ∈ a.held u, P x.context

theorem within_empty : empty.Within P := fun _ _ hx => absurd hx List.not_mem_nil

theorem Within.load {a : AssignmentStore} (h : a.Within P) {u : UserId} {rows : List Row}
    (hrows : a.load u = .ok rows) : (Snapshot.ofRows rows).Within P := by
  refine Snapshot.within_ofRows fun r hr => ?_
  obtain ⟨x, hx, -, -, rfl⟩ := (mem_load hrows).1 hr
  exact h u x hx

theorem Within.insertHoldings {a : AssignmentStore} (h : a.Within P) {user : UserId}
    {l : List Holding} (hl : ∀ x ∈ l, P x.context) :
    Within P { a with holdings := a.holdings.insert user l } := by
  intro u x hx
  by_cases hu : u = user
  · subst hu
    rw [held, SortedMap.get?_insert_self, Option.getD_some] at hx
    exact hl x hx
  · rw [held_eq_of_get? (SortedMap.get?_insert_of_ne _ _ hu)] at hx
    exact h u x hx

end AssignmentStore

def StoreCommand.places : StoreCommand → List ContextId
  | assign _ _ c => [c]
  | _ => []

theorem AssignmentStore.Within.revision {a a' : AssignmentStore} (h : a.Within P) {c : StoreCommand}
    (hc : ∀ id ∈ c.places, P id) (ha : c.revision a = .ok a') : a'.Within P := by
  cases c with
  | upsertRole role name =>
    cases ha
    exact h
  | grant role permission | ungrant role permission =>
    simp only [StoreCommand.revision, AssignmentStore.grantPermission,
      AssignmentStore.revokePermission, AssignmentStore.changePermissions] at ha
    split at ha
    · cases ha
    · cases ha
      exact h
  | assign user role context =>
    simp only [StoreCommand.revision, AssignmentStore.assignRole] at ha
    split at ha
    · cases ha
    · cases ha
      refine h.insertHoldings fun x hx => ?_
      split at hx
      · exact h user x hx
      · rcases List.mem_append.1 hx with hx | hx
        · exact h user x hx
        · rw [List.mem_singleton.1 hx]
          exact hc context (List.mem_singleton_self _)
  | unassign user role context =>
    cases ha
    unfold AssignmentStore.revokeRole
    cases hheld : a.holdings.get? user with
    | none => exact h
    | some l =>
      refine h.insertHoldings fun x hx => h user x ?_
      rw [AssignmentStore.held, hheld]
      exact (List.mem_filter.1 hx).1
  | _ =>
    cases ha
    exact h

section Command

variable {Obj : Type}

namespace Command

def places : Command Obj → List ContextId
  | .store c => c.places
  | .cache _ _ (.put _ rows _) => rows.map (·.context)
  | _ => []

/-- The command brings in nothing but what is about these contexts. -/
structure Within (P : ContextId → Prop) (c : Command Obj) : Prop where
  setsKey : c.setsKey = false
  places : ∀ id ∈ c.places, P id

end Command

/-- Roles are held at these contexts only, and no tier speaks of another one. -/
def Invariant.within (P : ContextId → Prop) (a : AssignmentStore) : Invariant Obj :=
  vouched (fun _ => True) a (fun _ q => q.Within P) fun _ q => q.Within P

theorem Invariant.within_sound [DomainObject Obj] {a : AssignmentStore} (h : a.Within P) :
    (within P a : Invariant Obj).Sound := vouched_sound id h.load

namespace Deployment

def Within (P : ContextId → Prop) (d : Deployment Obj) : Prop :=
  ∃ a : AssignmentStore, a.Within P ∧ (Invariant.within P a).On d

variable {d : Deployment Obj}

theorem within_setUp (contexts : ContextStore) (specs : List (EngineSpec Obj)) :
    (setUp contexts specs).1.Within P :=
  ⟨.empty, AssignmentStore.within_empty, Invariant.on_setUp_vouched fun _ _ _ _ _ => trivial⟩

theorem Within.mono (h : d.Within P) (hPQ : ∀ id, P id → Q id) : d.Within Q := by
  obtain ⟨a, ha, hon⟩ := h
  have hmore : ∀ {q : Snapshot}, q.Within P → q.Within Q := fun hq c hc => hPQ c (hq c hc)
  exact ⟨a, fun u x hx => hPQ _ (ha u x hx),
    hon.refine (fun _ _ => hmore) (fun _ => hmore) hmore⟩

theorem Within.evict (h : d.Within P) (i : Nat) (key : String) : (d.evict i key).Within P := by
  obtain ⟨a, ha, hon⟩ := h
  exact ⟨a, ha, hon.ready.evict i key⟩

theorem Within.expire (h : d.Within P) (key : String) : (d.expire key).Within P := by
  obtain ⟨a, ha, hon⟩ := h
  exact ⟨a, ha, hon.expire key⟩

variable [DomainObject Obj]

theorem Within.revise (h : d.Within P) {s : StoreCommand} (hs : s.changesRoles = true)
    (hplaces : ∀ id ∈ s.places, P id) : Within P (d.step (.store s)).2 := by
  obtain ⟨a, ha, hon⟩ := h
  obtain rfl : d.world.assignments = a := (hon.stock trivial).1
  have hstep : (d.step (.store s)).2 = { d with world := (s.perform.runFrom d.world).2 } := rfl
  rw [hstep, StoreCommand.runFrom_perform hs]
  cases hrevision : s.revision d.world.assignments with
  | ok a' => exact ⟨a', ha.revision hplaces hrevision, hon.reassign a'⟩
  | error e => exact ⟨_, ha, hon⟩

/-- No command makes anything be about other contexts but those that it names and the root. -/
theorem Within.step (h : d.Within P) (hroot : P rootId) {c : Command Obj} (hc : c.Within P) :
    Within P (d.step c).2 := by
  by_cases hcases : ∃ s, c = .store s ∧ s.changesRoles = true
  · obtain ⟨s, rfl, hs⟩ := hcases
    exact h.revise hs hc.places
  · obtain ⟨a, ha, hon⟩ := h
    refine ⟨a, ha, (Invariant.within_sound ha).on_step c ?_ hon.ready⟩
    refine Invariant.fits_vouched ?_ ?_ ?_
    · rintro s rfl
      refine ⟨?_, hc.setsKey⟩
      cases hs : s.changesRoles with
      | false => rfl
      | true => exact absurd ⟨s, rfl, hs⟩ hcases
    · exact fun _ _ _ _ _ => .inr (Snapshot.within_ofSuperAdmin hroot)
    · rintro i holder u rows ttl rfl
      exact Snapshot.within_ofRows fun r hr => hc.places _ (List.mem_map_of_mem hr)

end Deployment

end Command

end Clearance
