import Clearance.Proofs.Assignment.Loaded
import Clearance.Proofs.Deployment.Mirror
import Clearance.Proofs.Deployment.Tallies

/-! What several processes export together. They record into one place, and whatever they are asked in
any order, the events that are exported are those that they count themselves and those that have been
flushed; the loads that are exported are those that have succeeded. -/
namespace Clearance

variable {Obj : Type}

namespace StoreCommand

theorem leaves_metrics (c : StoreCommand) : c.perform.Leaves (·.metrics) := by
  have hrequest {α : Type} {c : Call} {answer : World → Except StorageError α × World}
      (h : ∀ w, (answer w).2.metrics = w.metrics) {f : α → Answer} :
      (World.request c answer >>= fun a => pure (f a)).Leaves (·.metrics) :=
    (World.leaves_request (fun _ => rfl) h).bind fun _ => Act.leaves_pure _
  have hroles (f : AssignmentStore → Except StorageError AssignmentStore) :
      (onAssignments f).Leaves (·.metrics) := fun w => by
    unfold onAssignments
    rw [Act.runFrom_ofFun]
    cases f w.assignments <;> rfl
  cases c with
  | getRecord | findRecord | loadRows | getKey | deleteKey => exact hrequest fun _ => rfl
  | createRecord d =>
    refine hrequest fun w => ?_
    cases w.disruption.imposed with
    | some r => rfl
    | none => cases w.contexts.create d <;> rfl
  | setKey key value ttl =>
    refine hrequest fun w => ?_
    cases w.keyValues.set key value ttl <;> rfl
  | upsertRole | grant | ungrant | assign | unassign => exact hroles _
  | _ => exact fun _ => rfl

theorem exists_reflects (c : StoreCommand) {w : World} {past : List StoreCommand}
    (h : w.assignments.Reflects past) :
    ∃ past, (c.perform.runFrom w).2.assignments.Reflects past := by
  cases hc : c.changesRoles with
  | false => exact ⟨past, by rwa [assignments_perform hc]⟩
  | true =>
    have hnext := h.next c
    rw [runFrom_perform hc]
    cases hr : c.revision w.assignments with
    | ok a =>
      rw [hr] at hnext
      exact ⟨_, hnext⟩
    | error e => exact ⟨past, h⟩

end StoreCommand

/-- The series of these events, with the values that are exported of them. -/
def Counters.series (c : Counters) : List (String × Nat) :=
  [(Metrics.hitsSeries .request, c.requestHits),
    (Metrics.hitsSeries .shared, c.sharedHits),
    (Metrics.hitsSeries .persistent, c.persistentHits),
    ("scopeacl_cache_misses_total", c.misses),
    ("scopeacl_cache_invalidations_total", c.invalidations),
    ("scopeacl_batch_checks_total", c.batchChecks)]

namespace Metrics

theorem lookup_events (m : Metrics) : ∀ x ∈ m.events.series, m.series.lookup x.1 = some x.2 := by
  simp only [Counters.series, List.forall_mem_cons]
  exact ⟨rfl, rfl, rfl, rfl, rfl, rfl, nofun⟩

theorem lookup_snapshotLoads (m : Metrics) :
    m.series.lookup "scopeacl_snapshot_loads_total" = some m.snapshotLoads := rfl

end Metrics

theorem World.metrics_foldl_log (w : World) (events : List Event) :
    (events.foldl (fun w e => w.log e) w).metrics = w.metrics := by
  induction events generalizing w with
  | nil => rfl
  | cons e events ih => exact ih (w.log e)

namespace Deployment

/-- What is exported are these events, counted or flushed, and these loads. -/
structure Exports (d : Deployment Obj) (k : Counters) (n : Nat) : Prop where
  events : d.world.metrics.events = d.counted + k
  loads : d.world.metrics.snapshotLoads = n
  reflects : ∃ past, d.world.assignments.Reflects past

variable {d : Deployment Obj} {k : Counters} {n : Nat}

namespace Exports

variable (h : d.Exports k n)

include h

theorem loadable : d.world.Loadable := fun u => h.reflects.elim fun _ hpast => hpast.exists_load u

theorem of_same {d' : Deployment Obj} (hmetrics : d'.world.metrics = d.world.metrics)
    (hcounted : d'.counted = d.counted) (hreflects : ∃ past, d'.world.assignments.Reflects past) :
    d'.Exports k n where
  events := by rw [hmetrics, hcounted, h.events]
  loads := by rw [hmetrics, h.loads]
  reflects := hreflects

theorem join (spec : EngineSpec Obj) : (d.addProcess spec).1.Exports k n := by
  unfold addProcess
  cases spec.build with
  | error e => exact h.of_same rfl ((d.counted_append none).trans (add_zero _)) h.reflects
  | ok x =>
    obtain ⟨e, events⟩ := x
    have hcounted := d.counted_append (some (.start e))
    have hassignments := congrArg Stock.assignments (Invariant.stock_foldl_log events d.world)
    refine h.of_same (d.world.metrics_foldl_log events) (hcounted.trans (add_zero _)) ?_
    exact h.reflects.imp fun past hpast => (congrArg (·.Reflects past) hassignments).mpr hpast

theorem evict (i : Nat) (key : String) : (d.evict i key).Exports k n := by
  unfold Deployment.evict
  cases hp : d.process? i with
  | none => exact h
  | some p => exact h.of_same rfl (add_right_cancel (counted_set hp _)) h.reflects

theorem step [DomainObject Obj] {c : Command Obj} (hc : c.tampers = false) :
    (d.step c).2.Exports (k + d.flushed c) (n + d.loads c) := by
  by_cases hstore : ∃ s, c = .store s
  · obtain ⟨s, rfl⟩ := hstore
    obtain ⟨past, hpast⟩ := h.reflects
    -- nothing is flushed, and what is loaded is not loaded by the loader
    have hsame : (d.step (.store s)).2.Exports k n :=
      h.of_same (s.leaves_metrics d.world) rfl (s.exists_reflects hpast)
    exact hsame
  · have hagrees := agrees_step d (fun s hs => hstore ⟨s, hs⟩) hc
    have hloads : d.loads c = d.world.served ((d.step c).2.world.callCount .loadAssignments) := by
      cases c with
      | store s => exact absurd ⟨s, rfl⟩ hstore
      | _ => rfl
    refine ⟨add_right_cancel (b := d.counted) ?_, ?_, ?_⟩
    · calc (d.step c).2.world.metrics.events + d.counted
          = d.world.metrics.events + ((d.step c).2.counted + d.flushed c) := hagrees.events
        _ = (d.step c).2.counted + (k + d.flushed c) + d.counted := by rw [h.events]; abel
    · rw [hloads, ← h.loads]
      exact hagrees.loads.exported h.loadable
    · rw [show (d.step c).2.world.assignments = d.world.assignments from hagrees.loads.assignments]
      exact h.reflects

end Exports

variable [DomainObject Obj]

/-- What processes come to that record into one place, after so much has been flushed and so many
loads have succeeded. Processes join at any time; between commands other processes may do anything to
the stores, which begin or cease to refuse requests, and entries of shared memory may vanish. -/
inductive Tallied : Deployment Obj → Counters → Nat → Prop
  | start (contexts : ContextStore) : Tallied (setUp contexts []).1 0 0
  | join {d : Deployment Obj} {k : Counters} {n : Nat} (spec : EngineSpec Obj) :
    Tallied d k n → Tallied (d.addProcess spec).1 k n
  | command {d : Deployment Obj} {k : Counters} {n : Nat} {c : Command Obj} :
    Tallied d k n → c.tampers = false → Tallied (d.step c).2 (k + d.flushed c) (n + d.loads c)
  | meanwhile {d : Deployment Obj} {k : Counters} {n : Nat} {w : World} {past : List StoreCommand} :
    Tallied d k n → w.metrics = d.world.metrics → w.assignments.Reflects past →
      Tallied { d with world := w } k n
  | evict {d : Deployment Obj} {k : Counters} {n : Nat} (i : Nat) (key : String) :
    Tallied d k n → Tallied (d.evict i key) k n

theorem Tallied.exports (h : Tallied d k n) : d.Exports k n := by
  induction h with
  | start contexts => exact ⟨rfl, rfl, [], AssignmentStore.reflects_empty⟩
  | join spec _ ih => exact ih.join spec
  | command _ hc ih => exact ih.step hc
  | meanwhile _ hmetrics hpast ih => exact ih.of_same hmetrics rfl ⟨_, hpast⟩
  | evict i key _ ih => exact ih.evict i key

/-- Whatever processes are asked that record into one place, and wherever that fails: each series of
events exports what the processes have in their counters, all together, and what successful flushes
have taken from these; and the series of loads exports how many have succeeded, which are those that
are not refused. -/
theorem exported_of_tallied (h : Tallied d k n) :
    (∀ x ∈ (d.counted + k).series, d.world.metrics.series.lookup x.1 = some x.2) ∧
    d.world.metrics.series.lookup "scopeacl_snapshot_loads_total" = some n ∧
    ∀ u, ((World.loadAssignments u).runFrom d.world).1.isOk =
      (d.world.disruption.refusal .loadAssignments (d.world.callCount .loadAssignments)).isNone := by
  have hexports := h.exports
  refine ⟨?_, ?_, World.isOk_loadAssignments hexports.loadable⟩
  · rw [← hexports.events]
    exact d.world.metrics.lookup_events
  · rw [Metrics.lookup_snapshotLoads, hexports.loads]

/-- One process has loaded the user 5 and flushed its counters, another one has found what the first
one has stored. The second one cannot flush its counters and cannot load the user 6; it has dropped
the user 5. -/
def tills : Deployment (Bare fun _ => none) :=
  (steps [.openSession "a" 0, .session "a" (.snapshot 5), .openSession "b" 1,
    .session "b" (.snapshot 5), .process 0 .persist, .store (.refuse .setKey 1 (.connection "down")),
    .process 1 .persist, .store (.refuse .loadAssignments 1 (.connection "down")),
    .session "b" (.snapshot 6), .process 1 (.invalidateShared 5)] (setUp .new [desk, desk]).1).2

theorem tallied_tills : Tallied tills { misses := 1 } 1 := by
  have hjoined := ((Tallied.start .new).join desk).join desk
  have hserved := (((hjoined.command (c := .openSession "a" 0) rfl).command
    (c := .session "a" (.snapshot 5)) rfl).command (c := .openSession "b" 1) rfl).command
    (c := .session "b" (.snapshot 5)) rfl
  have hflushed := ((hserved.command (c := .process 0 .persist) rfl).command
    (c := .store (.refuse .setKey 1 (.connection "down"))) rfl).command (c := .process 1 .persist) rfl
  have hfailed : Tallied tills _ _ := ((hflushed.command
    (c := .store (.refuse .loadAssignments 1 (.connection "down"))) rfl).command
    (c := .session "b" (.snapshot 6)) rfl).command (c := .process 1 (.invalidateShared 5)) rfl
  exact (congrArg₂ (Tallied tills) (by decide +kernel) (by decide +kernel)).mp hfailed

/-- Both processes have missed a user, and one of the loads has succeeded. -/
theorem exported_of_tallied_tills : Tallied tills { misses := 1 } 1 ∧
    tills.counted = { persistentHits := 1, misses := 1, invalidations := 1 } ∧
    tills.world.metrics.series.lookup "scopeacl_cache_misses_total" = some 2 ∧
    tills.world.metrics.series.lookup "scopeacl_snapshot_loads_total" = some 1 := by
  have hcounted : tills.counted = { persistentHits := 1, misses := 1, invalidations := 1 } := by
    decide +kernel
  obtain ⟨hevents, hloads, -⟩ := exported_of_tallied tallied_tills
  rw [hcounted] at hevents
  refine ⟨tallied_tills, hcounted, hevents ("scopeacl_cache_misses_total", 2) ?_, hloads⟩
  exact .tail _ (.tail _ (.tail _ (.head _)))

end Deployment

end Clearance
