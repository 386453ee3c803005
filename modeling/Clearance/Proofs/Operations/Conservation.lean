import Clearance.Proofs.Object
import Clearance.Proofs.Operations.Counting
import Clearance.Proofs.Operations.Record

/-! Counts are neither lost nor duplicated. Several services count on their own and move what they
have counted into one record, so that the record and the counters of all services together are what
has been counted. -/
namespace Clearance

namespace Operations

open Scene

variable {c : Counters} {kv : KeyValueStore} {config : OperationsConfig}

/-- The store that services share, and the counters of each. -/
structure Books where
  keyValues : KeyValueStore
  counters : List Counters

namespace Books

/-- What this service sees in the scene are its counters and the store; all else is as it may be. -/
def Opens (b : Books) (i : Nat) (s : Scene) : Prop :=
  b.counters[i]? = some s.counters ∧ s.world.keyValues = b.keyValues

/-- The books after this service has left the scene like that. -/
def close (b : Books) (i : Nat) (s : Scene) : Books :=
  ⟨s.world.keyValues, b.counters.set i s.counters⟩

/-- These counters can be read from the record, or nothing is recorded yet. -/
def Records (b : Books) (c : Counters) : Prop :=
  b.keyValues.get metricsKey = none ∧ c = 0 ∨
    ∃ bytes, b.keyValues.get metricsKey = some bytes ∧ Counters.ofBytes? bytes = some c

/-- The books as they may be once so much has been counted. Services join, work and move their
counters into the record, in any order and with any refusals; others change other keys. -/
inductive Run : Books → Counters → Prop
  | start {kv : KeyValueStore} : kv.get metricsKey = none → Run ⟨kv, []⟩ 0
  | join {b : Books} {k : Counters} : Run b k → Run { b with counters := b.counters ++ [0] } k
  | work {b : Books} {k : Counters} {i : Nat} {s : Scene} {ε α : Type} {t : Act Scene ε α}
      {n : Scene → Counters} : Run b k → b.Opens i s → Counting t n →
    Run (b.close i (t.runFrom s).2) (k + n s)
  | persist {b : Books} {k : Counters} {i : Nat} {s : Scene} (config : OperationsConfig) :
    Run b k → b.Opens i s → 0 < config.metricsTtl →
    Run (b.close i ((persistMetrics config).runFrom s).2) k
  | elsewhere {b : Books} {k : Counters} {kv : KeyValueStore} : Run b k →
    kv.get metricsKey = b.keyValues.get metricsKey → Run { b with keyValues := kv } k

variable {b : Books} {i : Nat} {s : Scene} {k r totals : Counters}

theorem Records.read_eq (h : b.Records r) :
    Counters.read (b.keyValues.get metricsKey) = r := by
  rcases h with ⟨hnone, rfl⟩ | ⟨bytes, hsome, hread⟩
  · rw [hnone]
    rfl
  · rw [hsome, Counters.read, hread, Option.getD_some]

theorem Opens.sum_close (h : b.Opens i s) (t : Scene) :
    (b.close i t).counters.sum + s.counters = b.counters.sum + t.counters := Counters.sum_set h.1 _

theorem Opens.close_eq (h : b.Opens i s) {t : Scene} (ht : Holds s.counters b.keyValues t) :
    b.close i t = b := by
  obtain ⟨hi, hget⟩ := List.getElem?_eq_some_iff.1 h.1
  rw [close, ht.counters, ht.keyValues, ← hget, List.set_getElem_self]

theorem Records.of_get {b' : Books} (h : b.Records r)
    (hget : b'.keyValues.get metricsKey = b.keyValues.get metricsKey) : b'.Records r := by
  unfold Records
  rw [hget]
  exact h

/-- Recorded totals can be read if they are of 64 bits. -/
theorem records_close (httl : 0 < config.metricsTtl) (hfits : totals.Fits) {t : Scene}
    (ht : Holds 0 (recording b.keyValues totals config.metricsTtl) t) :
    (b.close i t).Records totals := by
  have hget : (b.close i t).keyValues.get metricsKey = some totals.toBytes := by
    rw [close, ht.keyValues]
    exact get_recording b.keyValues totals httl
  exact .inr ⟨_, hget, Counters.ofBytes?_toBytes hfits⟩

/-- Moved counters can be read from the record, and nothing is lost on the way there. -/
theorem Opens.moved (h : b.Opens i s) (hr : b.Records r) (httl : 0 < config.metricsTtl)
    (hfits : (r + b.counters.sum).Fits) {t : Scene}
    (htotals : totals = Counters.read (b.keyValues.get metricsKey) + s.counters)
    (ht : Holds 0 (recording b.keyValues totals config.metricsTtl) t) :
    (b.close i t).Records totals ∧ totals + (b.close i t).counters.sum = r + b.counters.sum := by
  have hsum : totals + (b.close i t).counters.sum = r + b.counters.sum := by
    have hclose := h.sum_close t
    rw [ht.counters, add_zero] at hclose
    rw [htotals, hr.read_eq, add_assoc, add_comm s.counters, hclose]
  rw [← hsum] at hfits
  exact ⟨records_close httl hfits.of_add ht, hsum⟩

/-- The record and the counters of all services together are what has been counted. -/
theorem Run.balance (h : Run b k) (hfits : k.Fits) :
    ∃ r, b.Records r ∧ r + b.counters.sum = k := by
  induction h with
  | start hnone => exact ⟨0, .inl ⟨hnone, rfl⟩, zero_add _⟩
  | join _ ih =>
    obtain ⟨r, hr, hsum⟩ := ih hfits
    refine ⟨r, hr.of_get rfl, ?_⟩
    rw [List.sum_append, List.sum_singleton, add_zero]
    exact hsum
  | @work b k i s ε α t n _ hopens ht ih =>
    obtain ⟨r, hr, rfl⟩ := ih hfits.of_add
    have hadds := ht.adds
    refine ⟨r, hr.of_get ?_, ?_⟩
    · rw [← hopens.2]
      exact hadds.record s
    · have hsum := hopens.sum_close (t.runFrom s).2
      rw [hadds.counters, add_comm s.counters, ← add_assoc] at hsum
      rw [add_right_cancel hsum, add_assoc]
  | @persist b k i s config _ hopens httl ih =>
    obtain ⟨r, hr, rfl⟩ := ih hfits
    obtain ⟨totals, -, -, htotals, hleft⟩ | ⟨-, hleft⟩ :=
      persistMetrics_cases config ⟨rfl, hopens.2⟩
    · exact ⟨totals, hopens.moved hr httl hfits htotals hleft⟩
    · rw [hopens.close_eq hleft]
      exact ⟨r, hr, rfl⟩
  | elsewhere _ hget ih =>
    obtain ⟨r, hr, hsum⟩ := ih hfits
    exact ⟨r, hr.of_get hget, hsum⟩

/-- Counters that are yielded are the recorded ones, and the service starts again from zero. -/
theorem Run.records_persist (h : Run b k) (hfits : k.Fits) (hopens : b.Opens i s)
    (httl : 0 < config.metricsTtl) (henabled : config.metricsEnabled = true)
    (hout : ((persistMetrics config).runFrom s).1 = .ok totals) :
    (b.close i ((persistMetrics config).runFrom s).2).Records totals ∧
      ((persistMetrics config).runFrom s).2.counters = 0 := by
  obtain ⟨r, hr, rfl⟩ := h.balance hfits
  obtain ⟨totals', hout', -, htotals, hleft⟩ | ⟨⟨-, hdisabled⟩ | ⟨e, he⟩, -⟩ :=
    persistMetrics_cases config ⟨rfl, hopens.2⟩
  · cases hout.symm.trans hout'
    exact ⟨(hopens.moved hr httl hfits htotals hleft).1, hleft.counters⟩
  · cases henabled.symm.trans hdisabled
  · cases hout.symm.trans he

theorem Opens.close_persist (h : b.Opens i s) (hkept : config.metricsEnabled = false ∨
      ∃ e, ((persistMetrics config).runFrom s).1 = .error e) :
    b.close i ((persistMetrics config).runFrom s).2 = b := by
  obtain ⟨totals, hout, henabled, -⟩ | ⟨-, hleft⟩ := persistMetrics_cases config ⟨rfl, h.2⟩
  · rcases hkept with hdisabled | ⟨e, he⟩
    · cases henabled.symm.trans hdisabled
    · cases hout.symm.trans he
  · exact h.close_eq hleft

end Books

/-- Counts are neither lost nor duplicated: whatever services count and record in any order, their
counters and the record together are what has been counted. Moving the counters of a service yields
what is recorded then, or nothing has happened. Reports before and after that are about the same
counts, whatever was recorded. All that a service is asked is made of what is counted and what is
not. -/
theorem books_balance {Obj : Type} [DomainObject Obj] (v : Service Obj) {b : Books} {k : Counters}
    (h : b.Run k) (hfits : k.Fits) :
    (∃ r, b.Records r ∧ r + b.counters.sum = k) ∧
    (∀ (config : OperationsConfig) (i : Nat) (s : Scene), b.Opens i s → 0 < config.metricsTtl →
      let persisted := (persistMetrics config).runFrom s
      (config.metricsEnabled = true → ∀ totals, persisted.1 = .ok totals →
        (b.close i persisted.2).Records totals ∧ persisted.2.counters = 0) ∧
      (config.metricsEnabled = false ∨ (∃ e, persisted.1 = .error e) →
        b.close i persisted.2 = b) ∧
      (s.world.ahead = .none → config.metricsTtl < KeyValueStore.ttlLimit →
        ∃ totals, persisted.1 = .ok totals)) ∧
    (∀ (cache : CacheConfig) (config : OperationsConfig) (s : Scene), 0 < config.metricsTtl →
      (Counters.read s.record + s.counters).Fits →
      let before := (metricsReport cache config).runFrom s
      let after := (metricsReport cache config).runFrom ((persistMetrics config).runFrom before.2).2
      (∀ r r', before.1 = .ok r → after.1 = .ok r' → r'.counters = r.counters) ∧
      (s.world.ahead = .none → ∃ r r', before.1 = .ok r ∧ after.1 = .ok r')) ∧
    ∀ {ε α : Type} (t : Act Scene ε α), Asked v t → Counts t := by
  refine ⟨h.balance hfits, fun config i s hopens httl => ?_,
    fun cache config s httl hfits => ⟨fun r r' hr hr' => ?_, fun hcalm => ?_⟩, fun _ => Asked.counts⟩
  · refine ⟨fun henabled totals hout => ?_, hopens.close_persist, fun hcalm hlimit => ?_⟩
    · exact h.records_persist hfits hopens httl henabled hout
    · exact (meets_calm_persistMetrics config).exists_ok (fun _ _ h => h.2 hlimit) hcalm
  · exact counters_report_again cache httl hfits (Prod.ext hr rfl) (Prod.ext hr' rfl)
  · obtain ⟨r, t, r', t', hr, hr'⟩ := exists_reports cache config hcalm
    rw [hr, hr']
    exact ⟨r, r', rfl, rfl⟩

/-- One service has missed a user and recorded that, another one has invalidated the user. The record
cannot be written then, and after that it can. -/
theorem books_balance_two :
    let v : Service Strand := ⟨⟨.ofList ["file"], 25⟩, .empty, {}⟩
    let idle : Scene := ⟨⟨World.new, none⟩, .empty, {}, .empty⟩
    let missed := ((Cache.lookUp v.cache 7).runFrom idle).2
    let dropped := ((Cache.invalidateShared 7).runFrom idle).2
    let moved := ((persistMetrics {}).runFrom missed).2
    let b := ((Books.close ⟨.empty, [0, 0]⟩ 0 missed).close 1 dropped).close 0 moved
    let refusal (c : Call) (_ : Nat) : Option StorageError :=
      if c = .setKey then some (.connection "down") else none
    let next : Scene := { dropped with world := moved.world }
    let down : Disruption := { Disruption.none with refusal }
    let failing : Scene := { next with world := { next.world with disruption := down } }
    let counted : Counters := { misses := 1, invalidations := 1 }
    b.Run counted ∧ b.counters = [0, { invalidations := 1 }] ∧
      (∃ r, b.Records r ∧ r + b.counters.sum = counted) ∧
      b.close 1 ((persistMetrics {}).runFrom failing).2 = b ∧
      (b.close 1 ((persistMetrics {}).runFrom next).2).Records counted := by
  intro v idle missed dropped moved b refusal next down failing counted
  have hjoined : Books.Run ⟨.empty, [0, 0]⟩ 0 := .join (.join (.start rfl))
  have hmissed := hjoined.work (i := 0) (s := idle) ⟨rfl, rfl⟩ (.lookUp v.cache 7)
  have hdropped := hmissed.work (i := 1) (s := idle) ⟨rfl, rfl⟩ (.invalidate 7)
  have hmoved : b.Run counted :=
    hdropped.persist (i := 0) (s := missed) {} ⟨rfl, rfl⟩ (by decide)
  obtain ⟨hsum, hpersist, -⟩ := books_balance v hmoved (by unfold Counters.Fits; decide)
  refine ⟨hmoved, rfl, hsum, ?_, ?_⟩
  · refine (hpersist {} 1 failing ⟨rfl, rfl⟩ (by decide)).2.1 (.inr ⟨?_, ?_⟩)
    · exact .storage (.connection "down")
    · decide +kernel
  · exact ((hpersist {} 1 next ⟨rfl, rfl⟩ (by decide)).1 rfl _ (by decide +kernel)).1

end Operations

end Clearance
