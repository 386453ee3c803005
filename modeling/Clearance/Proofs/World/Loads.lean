import Clearance.Proofs.World.Stock

/-! What loads come to. Those that are not refused succeed, and each of them is exported, whoever has
asked for it. -/
namespace Clearance

namespace World

/-- The assignments of every user can be loaded. -/
def Loadable (w : World) : Prop := ∀ u, ∃ rows, w.assignments.load u = .ok rows

/-- How many loads are not refused from here until there have been `n`. -/
def served (w : World) (n : Nat) : Nat :=
  let made := w.callCount .loadAssignments
  (List.range' made (n - made)).countP fun k => (w.disruption.refusal .loadAssignments k).isNone

/-- Some loads may have been made meanwhile, each of which is exported if it has not been refused. -/
structure Loads (w w' : World) : Prop where
  assignments : w'.assignments = w.assignments
  refusal : w'.disruption.refusal = w.disruption.refusal
  le : w.callCount .loadAssignments ≤ w'.callCount .loadAssignments
  exported : w.Loadable → w'.metrics.snapshotLoads =
    w.metrics.snapshotLoads + w.served (w'.callCount .loadAssignments)

def loading (w : World) : Nat × AssignmentStore × (Call → Nat → Option StorageError) × Nat :=
  (w.metrics.snapshotLoads, w.assignments, w.disruption.refusal, w.callCount .loadAssignments)

section Loads

variable {w w' w'' : World}

theorem served_self (w : World) : w.served (w.callCount .loadAssignments) = 0 := by
  simp only [served, Nat.sub_self, List.range'_zero, List.countP_nil]

theorem served_next (w : World) : w.served (w.callCount .loadAssignments + 1) =
    if (w.disruption.refusal .loadAssignments (w.callCount .loadAssignments)).isNone then 1 else 0 := by
  simp only [served, Nat.add_sub_cancel_left, List.range'_one, List.countP_singleton]

theorem served_split (h : w.Loads w') {n : Nat} (hn : w'.callCount .loadAssignments ≤ n) :
    w.served n = w.served (w'.callCount .loadAssignments) + w'.served n := by
  obtain ⟨a, ha⟩ := Nat.exists_eq_add_of_le h.le
  obtain ⟨b, rfl⟩ := Nat.exists_eq_add_of_le hn
  unfold served
  rw [h.refusal, ← List.countP_append]
  simp only [ha, Nat.add_assoc, Nat.add_sub_cancel_left, Nat.add_sub_add_left, List.range'_append_1]

theorem Loads.of_loading (h : w'.loading = w.loading) : w.Loads w' := by
  simp only [loading, Prod.mk.injEq] at h
  obtain ⟨hloads, hassignments, hrefusal, hcalls⟩ := h
  refine ⟨hassignments, hrefusal, Nat.le_of_eq hcalls.symm, fun _ => ?_⟩
  rw [hloads, hcalls, served_self, Nat.add_zero]

theorem Loads.trans (h : w.Loads w') (h' : w'.Loads w'') : w.Loads w'' where
  assignments := h'.assignments.trans h.assignments
  refusal := h'.refusal.trans h.refusal
  le := Nat.le_trans h.le h'.le
  exported hloadable := by
    have hlater : w'.Loadable := fun u => h.assignments ▸ hloadable u
    rw [h'.exported hlater, h.exported hloadable, served_split h h'.le, Nat.add_assoc]

theorem Loads.of_one {m : Metrics} {events : Array Event}
    (h : w.Loadable → m.snapshotLoads = w.metrics.snapshotLoads +
      if (w.disruption.refusal .loadAssignments (w.callCount .loadAssignments)).isNone then 1 else 0) :
    w.Loads { w.noting .loadAssignments with metrics := m, events := events } := by
  have hmade := w.callCount_noting .loadAssignments .loadAssignments
  rw [if_pos rfl] at hmade
  refine ⟨rfl, rfl, hmade ▸ Nat.le_succ _, fun hloadable => (h hloadable).trans ?_⟩
  exact congrArg (w.metrics.snapshotLoads + ·) ((congrArg w.served hmade).trans w.served_next).symm

end Loads

theorem left_loadAssignments (u : UserId) (w : World) :
    ((loadAssignments u).runFrom w).2 = w.noting .loadAssignments := by
  rw [loadAssignments, runFrom_request]
  cases w.disruption.refusal .loadAssignments (w.callCount .loadAssignments) <;> rfl

theorem isOk_loadAssignments {w : World} (h : w.Loadable) (u : UserId) :
    ((loadAssignments u).runFrom w).1.isOk =
      (w.disruption.refusal .loadAssignments (w.callCount .loadAssignments)).isNone := by
  obtain ⟨rows, hrows⟩ := h u
  rw [loadAssignments, runFrom_request]
  cases w.disruption.refusal .loadAssignments (w.callCount .loadAssignments) with
  | some e => rfl
  | none => exact congrArg Except.isOk hrows

/-- A load is exported if it succeeds. -/
theorem loads_loadSnapshot (u : UserId) (w : World) : w.Loads ((loadSnapshot u).runFrom w).2 := by
  have hserved (h : w.Loadable) := isOk_loadAssignments h u
  have hleft := left_loadAssignments u w
  have hload := Act.runFrom_mapError Error.storage (loadAssignments u) w
  generalize (loadAssignments u).runFrom w = x at hserved hleft hload
  obtain ⟨r, _⟩ := x
  subst hleft
  cases r with
  | error e =>
    rw [loadSnapshot, Act.runFrom_bind_error hload]
    exact .of_one fun h => by rw [← hserved h]; rfl
  | ok rows =>
    rw [loadSnapshot, Act.runFrom_bind_ok hload]
    exact .of_one fun h => by rw [← hserved h]; rfl

end World

end Clearance
