import Clearance.Operations.Report
import Clearance.Proofs.Cache.Counting
import Clearance.Proofs.World.Ahead

/-! The record of counters. Moving the counters of a process into the record takes them from the
process exactly if it adds them to the record, so that a report says the same before and after. -/
namespace Clearance

/-- The counters that are recorded here; none where there is no record or it cannot be read. -/
def Counters.read : Option ByteArray → Counters
  | none => 0
  | some bytes => (ofBytes? bytes).getD 0

theorem Counters.read_toBytes {c : Counters} (h : c.Fits) : read (some c.toBytes) = c := by
  rw [read, ofBytes?_toBytes h, Option.getD_some]

namespace Operations

open Scene

variable {c : Counters} {kv : KeyValueStore} {config : OperationsConfig}

/-- A process with these counters sees this store. -/
structure Holds (c : Counters) (kv : KeyValueStore) (s : Scene) : Prop where
  counters : s.counters = c
  keyValues : s.world.keyValues = kv

theorem meets_ask {α : Type} {k : Call} {answer : World → Except StorageError α × World}
    {Q : α → Scene → Prop} (h : ∀ s, Holds c kv s → Act.Ends
      (fun a w => Q a { s with world := w }) (fun _ w => Holds c kv { s with world := w })
      (answer s.world)) :
    (ask (World.request k answer)).Meets (Holds c kv) Q fun _ => Holds c kv := by
  intro s hs
  have hnoted : Holds c kv { s with world := s.world.noting k } := ⟨hs.counters, hs.keyValues⟩
  rw [runFrom_ask, World.runFrom_request]
  cases s.world.disruption.refusal k (s.world.callCount k) with
  | some e => exact hnoted
  | none =>
    have hends := h _ hnoted
    show Act.Ends _ _ ((answer (s.world.noting k)).1.mapError _, _)
    generalize answer (s.world.noting k) = x at hends
    match x with
    | (.ok a, w) | (.error e, w) => exact hends

theorem meets_recorded : recorded.Meets (Holds c kv)
    (fun r s => Holds c kv s ∧ r = Counters.read (kv.get metricsKey)) fun _ => Holds c kv := by
  have hget : (ask (World.getKey metricsKey)).Meets (Holds c kv)
      (fun found s => Holds c kv s ∧ found = kv.get metricsKey) fun _ => Holds c kv :=
    meets_ask fun s hs => ⟨hs, by rw [hs.keyValues]⟩
  refine hget.bind fun found => ?_
  cases found with
  | none =>
    refine Act.meets_pure fun s hs => ⟨hs.1, ?_⟩
    rw [← hs.2]
    rfl
  | some bytes =>
    cases hread : Counters.ofBytes? bytes with
    | some r =>
      simp only [hread]
      refine Act.meets_pure fun s hs => ⟨hs.1, ?_⟩
      rw [← hs.2, Counters.read, hread, Option.getD_some]
    | none =>
      simp only [hread]
      refine Act.Meets.bind (R := fun _ s => Holds c kv s ∧ some bytes = kv.get metricsKey)
        (Act.meets_modify fun s hs => ⟨⟨hs.1.counters, hs.1.keyValues⟩, hs.2⟩) fun _ => ?_
      refine Act.meets_pure fun s hs => ⟨hs.1, ?_⟩
      rw [← hs.2, Counters.read, hread, Option.getD_none]
      rfl

theorem meets_metricsReport (cache : CacheConfig) (config : OperationsConfig) :
    (metricsReport cache config).Meets (Holds c kv)
      (fun r s => Holds c kv s ∧ r.counters = Counters.read (kv.get metricsKey) + c)
      fun _ => Holds c kv := by
  refine meets_recorded.bind fun r => Act.meets_get_bind fun x => Act.meets_pure ?_
  rintro s ⟨⟨hs, rfl⟩, rfl⟩
  exact ⟨hs, by rw [hs.counters]⟩

def recording (kv : KeyValueStore) (totals : Counters) (ttl : Nat) : KeyValueStore :=
  ⟨kv.entries.insert metricsKey ⟨totals.toBytes, ttl⟩⟩

theorem get_recording (kv : KeyValueStore) (totals : Counters) {ttl : Nat} (h : 0 < ttl) :
    (recording kv totals ttl).get metricsKey = some totals.toBytes := kv.get_insert_self _ _ h

theorem meets_addToRecord (config : OperationsConfig) (delta : Counters) :
    (addToRecord config delta).Meets (Holds c kv)
      (fun totals s => totals = Counters.read (kv.get metricsKey) + delta ∧
        Holds c (recording kv totals config.metricsTtl) s)
      fun _ => Holds c kv := by
  refine meets_recorded.bind fun r => ?_
  let totals := r + delta
  have hset : (ask (World.setKey metricsKey totals.toBytes config.metricsTtl)).Meets (Holds c kv)
      (fun _ => Holds c (recording kv totals config.metricsTtl)) fun _ => Holds c kv := by
    refine meets_ask fun s hs => ?_
    unfold KeyValueStore.set
    by_cases hlimit : config.metricsTtl < KeyValueStore.ttlLimit
    · simp only [if_pos hlimit]
      refine ⟨hs.counters, ?_⟩
      rw [← hs.keyValues]
      rfl
    · simp only [if_neg hlimit]
      exact hs
  intro s hs
  obtain ⟨hs, hr⟩ := hs
  refine Act.Meets.bind (hset.mono (fun _ h => h) (fun _ _ h => h) fun _ _ h => h)
    (fun _ => ?_) s hs
  refine Act.Meets.bind (R := fun _ => Holds c (recording kv totals config.metricsTtl))
    (Act.meets_modify fun s hs => ⟨hs.counters, hs.keyValues⟩) fun _ => Act.meets_pure fun s hs => ?_
  exact ⟨by rw [← hr], hs⟩

/-- The counters of the process have been moved into the record, or nothing has happened: after a
failure, and where counters are not recorded at all. -/
theorem meets_persistMetrics (config : OperationsConfig) :
    (persistMetrics config).Meets (Holds c kv)
      (fun totals s => if config.metricsEnabled = true
        then totals = Counters.read (kv.get metricsKey) + c ∧
          Holds 0 (recording kv totals config.metricsTtl) s
        else totals = c ∧ Holds c kv s)
      fun _ => Holds c kv := by
  rintro s ⟨rfl, rfl⟩
  rw [persistMetrics, Act.runFrom_bind_ok (Act.runFrom_get s)]
  by_cases henabled : config.metricsEnabled = true
  · simp only [henabled, Bool.not_true, Bool.false_eq_true, if_false, if_true]
    have hadd : ((addToRecord config s.counters).attempt : Act Scene Error _).Meets
        (Holds 0 s.world.keyValues)
        (fun r t => Act.Ends
          (fun totals t => totals = Counters.read (s.world.keyValues.get metricsKey) + s.counters ∧
            Holds 0 (recording s.world.keyValues totals config.metricsTtl) t)
          (fun _ => Holds 0 s.world.keyValues) (r, t))
        fun _ => Holds s.counters s.world.keyValues :=
      Act.Meets.attempt (meets_addToRecord config s.counters)
    refine Act.Meets.bind (P := (· = s)) (R := fun _ => Holds 0 s.world.keyValues)
      (Act.meets_modify ?_) (fun _ => hadd.bind fun r => ?_) s rfl
    · rintro t rfl
      exact ⟨rfl, rfl⟩
    · cases r with
      | ok totals => exact Act.meets_pure fun t ht => ht
      | error e =>
        -- what has been taken is put back
        refine Act.Meets.bind (R := fun _ => Holds s.counters s.world.keyValues)
          (Act.meets_modify fun t ht => ⟨?_, ht.keyValues⟩) fun _ => Act.meets_throw fun t ht => ht
        have hzero : t.counters = 0 := ht.counters
        show t.counters + s.counters = s.counters
        rw [hzero, zero_add]
  · simp only [Bool.eq_false_iff.2 henabled, Bool.not_false, if_true, Bool.false_eq_true, if_false]
    exact ⟨rfl, rfl, rfl⟩

theorem persistMetrics_cases (config : OperationsConfig) {s : Scene} (h : Holds c kv s) :
    (∃ totals, ((persistMetrics config).runFrom s).1 = .ok totals ∧ config.metricsEnabled = true ∧
      totals = Counters.read (kv.get metricsKey) + c ∧
      Holds 0 (recording kv totals config.metricsTtl) ((persistMetrics config).runFrom s).2) ∨
    ((((persistMetrics config).runFrom s).1 = .ok c ∧ config.metricsEnabled = false ∨
      ∃ e, ((persistMetrics config).runFrom s).1 = .error e) ∧
      Holds c kv ((persistMetrics config).runFrom s).2) := by
  have hends := meets_persistMetrics config s h
  match (persistMetrics config).runFrom s, hends with
  | (.error e, t), hends => exact .inr ⟨.inr ⟨e, rfl⟩, hends⟩
  | (.ok totals, t), hends =>
    by_cases henabled : config.metricsEnabled = true
    · obtain ⟨htotals, hholds⟩ : _ ∧ _ := by simpa only [Act.Ends, if_pos henabled] using hends
      exact .inl ⟨totals, rfl, henabled, htotals, hholds⟩
    · obtain ⟨rfl, hholds⟩ : _ ∧ _ := by simpa only [Act.Ends, if_neg henabled] using hends
      exact .inr ⟨.inl ⟨rfl, Bool.eq_false_iff.2 henabled⟩, hholds⟩

/-- What is recorded and what the process has counted since come to this. -/
def Totals (k : Counters) (s : Scene) : Prop := Counters.read s.record + s.counters = k

theorem Holds.totals {s : Scene} (h : Holds c kv s) :
    Totals (Counters.read (kv.get metricsKey) + c) s := by
  rw [Totals, record, h.counters, h.keyValues]

theorem meets_metricsReport_totals {k : Counters} (cache : CacheConfig) (config : OperationsConfig) :
    (metricsReport cache config).Meets (Totals k) (fun r s => Totals k s ∧ r.counters = k)
      fun _ => Totals k := by
  rintro s rfl
  have hends := meets_metricsReport cache config s ⟨rfl, rfl⟩
  match (metricsReport cache config).runFrom s, hends with
  | (.ok r, t), ⟨ht, hr⟩ => exact ⟨ht.totals, hr⟩
  | (.error e, t), ht => exact ht.totals

/-- Moving the counters does not change what they come to with the record, whatever was recorded. -/
theorem keeps_totals_persistMetrics {k : Counters} (httl : 0 < config.metricsTtl) (hfits : k.Fits) :
    (persistMetrics config).Keeps (Totals k) := by
  rintro s rfl
  obtain ⟨totals, -, -, htotals, hleft⟩ | ⟨-, hleft⟩ := persistMetrics_cases config ⟨rfl, rfl⟩
  · have hmoved := hleft.totals
    rw [get_recording _ _ httl, add_zero, htotals] at hmoved
    exact hmoved.trans (Counters.read_toBytes hfits)
  · exact hleft.totals

/-- Nothing is refused from here on. -/
def Calm (s : Scene) : Prop := s.world.ahead = .none

theorem meets_calm_ask {α : Type} {k : Call} {answer : World → Except StorageError α × World}
    {E : Prop} (h : ∀ w, Act.Ends (fun _ w' => w'.ahead = w.ahead)
      (fun _ w' => w'.ahead = w.ahead ∧ E) (answer w)) :
    (ask (World.request k answer)).Meets Calm (fun _ => Calm) fun _ s => Calm s ∧ E := by
  intro s hs
  obtain ⟨hrun, hcalm⟩ := World.runFrom_request_of_calm hs k answer
  have hends := h (s.world.noting k)
  rw [runFrom_ask, hrun]
  generalize answer (s.world.noting k) = x at hends
  match x with
  | (.ok a, w) => exact hends.trans hcalm
  | (.error e, w) => exact ⟨hends.1.trans hcalm, hends.2⟩

theorem meets_calm_recorded {E : Prop} :
    recorded.Meets Calm (fun _ => Calm) fun _ s => Calm s ∧ E := by
  refine Act.Meets.bind (meets_calm_ask fun w => rfl) fun found => ?_
  cases found with
  | none => exact Act.meets_pure fun _ hs => hs
  | some bytes =>
    cases hread : Counters.ofBytes? bytes with
    | some r =>
      simp only [hread]
      exact Act.meets_pure fun _ hs => hs
    | none =>
      simp only [hread]
      exact Act.Meets.bind (Act.meets_modify fun _ hs => hs) fun _ => Act.meets_pure fun _ hs => hs

theorem meets_calm_metricsReport (cache : CacheConfig) (config : OperationsConfig) :
    (metricsReport cache config).Meets Calm (fun _ => Calm) fun _ s => Calm s ∧ False :=
  meets_calm_recorded.bind fun _ => Act.meets_get_bind fun _ => Act.meets_pure fun _ hs => hs.1

theorem meets_calm_persistMetrics (config : OperationsConfig) :
    (persistMetrics config).Meets Calm (fun _ => Calm)
      fun _ s => Calm s ∧ ¬ config.metricsTtl < KeyValueStore.ttlLimit := by
  have hset (value : ByteArray) :
      (ask (World.setKey metricsKey value config.metricsTtl)).Meets Calm (fun _ => Calm)
        fun _ s => Calm s ∧ ¬ config.metricsTtl < KeyValueStore.ttlLimit := by
    refine meets_calm_ask fun w => ?_
    unfold KeyValueStore.set
    by_cases hlimit : config.metricsTtl < KeyValueStore.ttlLimit
    · simp only [if_pos hlimit]
      rfl
    · simp only [if_neg hlimit]
      exact ⟨rfl, hlimit⟩
  have hadd (delta : Counters) : (addToRecord config delta).Meets Calm (fun _ => Calm)
      fun _ s => Calm s ∧ ¬ config.metricsTtl < KeyValueStore.ttlLimit :=
    meets_calm_recorded.bind fun _ => (hset _).bind fun _ =>
      Act.Meets.bind (Act.meets_modify fun _ hs => hs) fun _ => Act.meets_pure fun _ hs => hs
  refine Act.meets_get_bind fun before => ?_
  split
  · exact Act.meets_pure fun _ hs => hs.1
  · refine Act.Meets.bind (R := fun _ => Calm) (Act.meets_modify fun _ hs => hs.1) fun _ => ?_
    have hattempt : ((addToRecord config before.counters).attempt : Act Scene Error _).Meets Calm
        (fun r s => Act.Ends (fun _ => Calm)
          (fun _ s => Calm s ∧ ¬ config.metricsTtl < KeyValueStore.ttlLimit) (r, s))
        fun _ s => Calm s ∧ ¬ config.metricsTtl < KeyValueStore.ttlLimit :=
      Act.Meets.attempt (hadd before.counters)
    refine hattempt.bind fun r => ?_
    cases r with
    | ok totals => exact Act.meets_pure fun _ hs => hs
    | error e =>
      exact Act.Meets.bind (Act.meets_modify fun _ hs => hs) fun _ => Act.meets_throw fun _ hs => hs

/-- A report before the counters are moved and one after that are about the same counts. -/
theorem counters_report_again (cache : CacheConfig) (httl : 0 < config.metricsTtl) {s : Scene}
    (hfits : (Counters.read s.record + s.counters).Fits) {r r' : MetricsReport} {t t' : Scene}
    (hr : (metricsReport cache config).runFrom s = (.ok r, t))
    (hr' : (metricsReport cache config).runFrom ((persistMetrics config).runFrom t).2 = (.ok r', t')) :
    r'.counters = r.counters := by
  have hreport := meets_metricsReport_totals (k := Counters.read s.record + s.counters) cache config
  obtain ⟨htotals, hbefore⟩ := hreport.ok rfl hr
  have hmoved := keeps_totals_persistMetrics httl hfits t htotals
  exact (hreport.ok hmoved hr').2.trans hbefore.symm

theorem exists_reports (cache : CacheConfig) (config : OperationsConfig) {s : Scene} (h : Calm s) :
    ∃ r t r' t', (metricsReport cache config).runFrom s = (.ok r, t) ∧
      (metricsReport cache config).runFrom ((persistMetrics config).runFrom t).2 = (.ok r', t') := by
  have hreport := meets_calm_metricsReport cache config
  obtain ⟨r, hr⟩ := hreport.exists_ok (fun _ _ h => h.2) h
  have hreported := hreport.ok h (Prod.ext hr rfl)
  have hpersisted := (meets_calm_persistMetrics config).keeps (fun _ _ h => h) (fun _ _ h => h.1)
    _ hreported
  obtain ⟨r', hr'⟩ := hreport.exists_ok (fun _ _ h => h.2) hpersisted
  exact ⟨r, _, r', _, Prod.ext hr rfl, Prod.ext hr' rfl⟩

end Operations

end Clearance
