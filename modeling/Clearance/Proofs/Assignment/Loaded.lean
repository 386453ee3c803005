import Clearance.Proofs.Assignment.History

/-! What is loaded of a user. After any history the rows of the user are the roles that the history
assigns to it, and the snapshot made of them permits and holds what the history says. -/
namespace Clearance

open StoreCommand

def Row.holding (r : Row) : Holding := ⟨r.role, r.context⟩

/-- The rows are what the history says of the user: one of each role at each context. -/
structure StoreCommand.Rows (past : List StoreCommand) (user : UserId) (rows : List Row) : Prop where
  nodup : (rows.map Row.holding).Nodup
  mem (x : Holding) : x ∈ rows.map Row.holding ↔ assigned user x past = true
  named {r : Row} : r ∈ rows → nameOf r.role past = some r.roleName
  ascending {r : Row} : r ∈ rows → r.permissions.Pairwise (· < ·)
  permits {r : Row} (p : String) :
    r ∈ rows → (p ∈ r.permissions ↔ permitted r.role p past = true)

/-- The snapshot permits and holds at each context what the history says of the user. -/
structure StoreCommand.Sees (past : List StoreCommand) (user : UserId) (s : Snapshot) : Prop where
  permits (c : ContextId) (p : String) : s.permits c p = true ↔
    ∃ role, assigned user ⟨role, c⟩ past = true ∧ permitted role p past = true
  roleName (c : ContextId) (role : RoleId) :
    s.roleName? c role = if assigned user ⟨role, c⟩ past = true then nameOf role past else none

section Load

variable {a : AssignmentStore} {past : List StoreCommand} {user : UserId} {rows : List Row}

theorem exists_mapM_ok {ε α β : Type} {f : α → Except ε β} {l : List α}
    (h : ∀ x ∈ l, ∃ y, f x = .ok y) : ∃ ys, l.mapM f = .ok ys := by
  induction l with
  | nil => exact ⟨[], rfl⟩
  | cons x l ih =>
    rw [List.forall_mem_cons] at h
    obtain ⟨⟨y, hy⟩, hl⟩ := h
    obtain ⟨ys, hys⟩ := ih hl
    exact ⟨y :: ys, by rw [List.mapM_cons, hy, hys]; rfl⟩

theorem map_of_mapM_ok {ε α β : Type} {f : α → Except ε β} {g : β → α} {l : List α} {ys : List β}
    (hg : ∀ x y, f x = .ok y → g y = x) (h : l.mapM f = .ok ys) : ys.map g = l := by
  induction l generalizing ys with
  | nil =>
    cases h
    rfl
  | cons x l ih =>
    rw [List.mapM_cons] at h
    cases hx : f x with
    | error e =>
      rw [hx] at h
      cases h
    | ok y =>
      cases hl : l.mapM f with
      | error e =>
        rw [hx, hl] at h
        cases h
      | ok ys =>
        rw [hx, hl] at h
        cases h
        rw [List.map_cons, hg x y hx, ih hl]

theorem SortedSet.pairwise_toList (s : SortedSet String) : s.toList.Pairwise (· < ·) :=
  List.pairwise_map.2 (s.ascend.imp compareOfLessAndEq_eq_lt.1)

namespace AssignmentStore.Reflects

theorem exists_role (h : a.Reflects past) {x : Holding} (hx : assigned user x past = true) :
    ∃ r, a.roles.get? x.role = some r := by
  have hmade := isSome_nameOf_of_assigned hx
  rw [h.isSome_nameOf] at hmade
  exact Option.isSome_iff_exists.1 hmade

theorem exists_load (h : a.Reflects past) (user : UserId) : ∃ rows, a.load user = .ok rows := by
  refine exists_mapM_ok fun x hx => ?_
  obtain ⟨r, hr⟩ := h.exists_role ((h.held user x).1 hx)
  exact ⟨_, rowOf_eq_ok.2 ⟨r, hr, rfl⟩⟩

theorem holdings_of_load (hload : a.load user = .ok rows) :
    rows.map Row.holding = a.held user := by
  refine map_of_mapM_ok (fun x row hrow => ?_) hload
  obtain ⟨r, -, rfl⟩ := rowOf_eq_ok.1 hrow
  rfl

theorem rows_of_load (h : a.Reflects past) (hload : a.load user = .ok rows) : Rows past user rows := by
  have hholdings := holdings_of_load hload
  have hrole : ∀ {row}, row ∈ rows → ∃ r, a.roles.get? row.role = some r ∧
      row.roleName = r.name ∧ row.permissions = r.permissions.toList := by
    intro row hrow
    obtain ⟨x, -, r, hr, rfl⟩ := (mem_load hload).1 hrow
    exact ⟨r, hr, rfl, rfl⟩
  refine ⟨hholdings ▸ h.nodup user, fun x => hholdings ▸ h.held user x, fun hrow => ?_,
    fun hrow => ?_, fun p hrow => ?_⟩
  · obtain ⟨r, hr, hname, -⟩ := hrole hrow
    rw [← h.names, hr, hname]
    rfl
  · obtain ⟨r, -, -, hpermissions⟩ := hrole hrow
    exact hpermissions ▸ r.permissions.pairwise_toList
  · obtain ⟨r, hr, -, hpermissions⟩ := hrole hrow
    rw [← h.permissions, hr, hpermissions]
    exact SortedSet.mem_toList

end AssignmentStore.Reflects

/-- A snapshot that is made of the right rows says what they say. -/
theorem StoreCommand.Rows.sees (h : Rows past user rows) : Sees past user (.ofRows rows) where
  permits c p := by
    rw [Snapshot.permits_ofRows]
    constructor
    · rintro ⟨r, hr, rfl, hp⟩
      exact ⟨r.role, (h.mem r.holding).1 (List.mem_map_of_mem hr), (h.permits p hr).1 hp⟩
    · rintro ⟨role, hassigned, hp⟩
      obtain ⟨r, hr, hx⟩ := List.mem_map.1 ((h.mem _).2 hassigned)
      obtain ⟨rfl, rfl⟩ := Holding.mk.inj hx
      exact ⟨r, hr, rfl, (h.permits p hr).2 hp⟩
  roleName c role := by
    rw [Snapshot.roleName?_ofRows]
    cases hlast : (rows.filter fun r => r.context = c ∧ r.role = role).getLast? with
    | none =>
      have hnone := List.filter_eq_nil_iff.1 (List.getLast?_eq_none_iff.1 hlast)
      have hunassigned : ¬assigned user ⟨role, c⟩ past = true := fun hassigned => by
        obtain ⟨r, hr, hx⟩ := List.mem_map.1 ((h.mem _).2 hassigned)
        obtain ⟨rfl, rfl⟩ := Holding.mk.inj hx
        exact hnone r hr (by simp)
      rw [if_neg hunassigned]
      rfl
    | some r =>
      obtain ⟨hr, hat⟩ := List.mem_filter.1 (List.mem_of_getLast? hlast)
      obtain ⟨rfl, rfl⟩ := of_decide_eq_true hat
      have hassigned : assigned user ⟨r.role, r.context⟩ past = true :=
        (h.mem r.holding).1 (List.mem_map_of_mem hr)
      rw [if_pos hassigned, h.named hr]
      rfl

end Load

theorem World.loadSnapshot_of_load {w : World} {user : UserId} {rows : List Row}
    (hrefusal : w.disruption.refusal .loadAssignments (w.callCount .loadAssignments) = none)
    (hload : w.assignments.load user = .ok rows) :
    ((loadSnapshot user).runFrom w).1 = .ok (.ofRows rows) := by
  have hrows : ((loadAssignments user).mapError Error.storage).runFrom w =
      (.ok rows, w.noting .loadAssignments) := by
    have hanswer : (w.noting .loadAssignments).assignments.load user = .ok rows := hload
    rw [Act.runFrom_mapError, loadAssignments, runFrom_request, hrefusal, hanswer]
    rfl
  rw [loadSnapshot, Act.runFrom_bind_ok hrows]
  rfl

namespace AssignmentStore

/-- Whatever has been carried out from a store without roles, with or without success, a load
yields one row for each role that is assigned at a context, and the snapshot that is made of them
permits and holds what is assigned. A command that fails changes nothing, and a role that is taken
away leaves what the other roles at its context permit. -/
theorem load_after (past : List StoreCommand) (w : World) (user : UserId) :
    (∃ rows, (after past (unassigned w)).assignments.load user = .ok rows ∧
      Rows past user rows ∧ Sees past user (.ofRows rows) ∧
      ∀ w', w'.assignments = (after past (unassigned w)).assignments →
        w'.disruption.refusal .loadAssignments (w'.callCount .loadAssignments) = none →
        ((World.loadSnapshot user).runFrom w').1 = .ok (.ofRows rows)) ∧
    (∀ c : StoreCommand, c.changesRoles = true → ∀ e : StorageError,
      (c.perform.runFrom (after past (unassigned w))).1 = .error e →
        (∃ role, e = .roleNotFound role ∧ nameOf role past = none) ∧
        (c.perform.runFrom (after past (unassigned w))).2 = after past (unassigned w)) ∧
    ∀ role other c p, other ≠ role → assigned user ⟨other, c⟩ past = true →
      permitted other p past = true →
        ∃ rows, (after (.unassign user role c :: past) (unassigned w)).assignments.load user =
          .ok rows ∧ (Snapshot.ofRows rows).permits c p = true := by
  have hloaded (past : List StoreCommand) : ∃ rows,
      (after past (unassigned w)).assignments.load user = .ok rows ∧ Rows past user rows := by
    have hreflects := reflects_after past w
    obtain ⟨rows, hload⟩ := hreflects.exists_load user
    exact ⟨rows, hload, hreflects.rows_of_load hload⟩
  refine ⟨?_, fun c hc e he => ?_, fun role other c p hne hassigned hp => ?_⟩
  · obtain ⟨rows, hload, hrows⟩ := hloaded past
    refine ⟨rows, hload, hrows, hrows.sees, fun w' hw' hrefusal => ?_⟩
    exact World.loadSnapshot_of_load hrefusal (hw' ▸ hload)
  · rw [runFrom_perform hc] at he ⊢
    cases hr : c.revision (after past (unassigned w)).assignments with
    | ok a =>
      rw [hr] at he
      cases he
    | error e' =>
      rw [hr] at he
      cases he
      exact ⟨(reflects_after past w).of_revision_error hr, rfl⟩
  · obtain ⟨rows, hload, hrows⟩ := hloaded (.unassign user role c :: past)
    have hstill : assigned user ⟨other, c⟩ (.unassign user role c :: past) = true := by
      rw [assigned, if_neg fun he => hne (Holding.mk.inj he.2).1.symm, hassigned]
    exact ⟨rows, hload, (hrows.sees.permits c p).2 ⟨other, hstill, hp⟩⟩

/-- Two roles permit the same, and one of them is taken away. -/
example : ((after [.unassign 5 1 rootId, .assign 5 2 rootId, .grant 2 "edit", .upsertRole 2 "deputy",
    .assign 5 1 rootId, .grant 1 "edit", .upsertRole 1 "editor"] World.new).assignments.permits 5
      "edit" rootId) = true := by decide +kernel

end AssignmentStore

end Clearance
