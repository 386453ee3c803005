import Clearance.Proofs.Deployment.Mirror
import Clearance.Proofs.Deployment.Repeatable
import Clearance.Proofs.Operations.Record
import Clearance.Proofs.Session.Serving
import Clearance.Proofs.Settings.Valid

/-! What valid settings promise. The clock can tell every time that is set with them, so that a
process made from them writes back what it has loaded, finds it again and can read what it has
recorded. -/
namespace Clearance

namespace Settings

variable {Obj : Type} {s : Settings} {e : Engine Obj}

theorem maxTtl_lt_ttlLimit : maxTtl < KeyValueStore.ttlLimit := by decide

theorem Governs.persistentTtl_pos (h : s.Governs e) : 0 < e.service.cache.persistentTtl := by
  rw [h.cache]
  exact h.valid.persistentTtl_pos

theorem Governs.persistentTtl_lt (h : s.Governs e) :
    e.service.cache.persistentTtl < KeyValueStore.ttlLimit := by
  rw [h.cache]
  exact Nat.lt_of_le_of_lt h.valid.persistentTtl_le maxTtl_lt_ttlLimit

theorem Governs.metricsTtl_pos (h : s.Governs e) : 0 < e.operations.metricsTtl := by
  rw [h.operations]
  exact h.valid.metricsTtl_pos

theorem Governs.metricsTtl_lt (h : s.Governs e) :
    e.operations.metricsTtl < KeyValueStore.ttlLimit := by
  rw [h.operations]
  exact Nat.lt_of_le_of_lt h.valid.metricsTtl_le maxTtl_lt_ttlLimit

end Settings

namespace Operations

open Scene

variable {config : OperationsConfig} {s s' : Scene} {e : Error} {totals : Counters}

/-- The record is read unless the request for it is refused, and no value is set meanwhile. -/
theorem meets_recorded_of_refusals (r r' : Option StorageError) : recorded.Meets
    (fun s => s.world.ahead.refusal .getKey 0 = r ∧ s.world.ahead.refusal .setKey 0 = r')
    (fun _ s => s.world.ahead.refusal .setKey 0 = r') fun e _ => r.map .storage = some e := by
  have hget : (ask (World.getKey metricsKey)).Meets
      (fun s => s.world.ahead.refusal .getKey 0 = r ∧ s.world.ahead.refusal .setKey 0 = r')
      (fun _ s => s.world.ahead.refusal .setKey 0 = r') fun e _ => r.map .storage = some e := by
    refine Scene.meets_ask ?_ fun s hs => hs.2
    rintro s e ⟨rfl, -⟩ hr
    rw [hr, Option.map_some]
  refine hget.bind fun found => ?_
  cases found with
  | none => exact Act.meets_pure fun _ hs => hs
  | some bytes =>
    cases hread : Counters.ofBytes? bytes with
    | some c =>
      simp only [hread]
      exact Act.meets_pure fun _ hs => hs
    | none =>
      simp only [hread]
      exact Act.Meets.bind (Act.meets_modify fun _ hs => hs) fun _ => Act.meets_pure fun _ hs => hs

theorem runFrom_recorded (h : s.world.ahead.refusal .getKey 0 = none) :
    (recorded.runFrom s).1 = .ok (Counters.read (s.world.keyValues.get metricsKey)) := by
  have hholds : Holds s.counters s.world.keyValues s := ⟨rfl, rfl⟩
  have hunrefused := meets_recorded_of_refusals none (s.world.ahead.refusal .setKey 0)
  obtain ⟨c, hc⟩ := hunrefused.exists_ok (fun _ _ he => nomatch he) ⟨h, rfl⟩
  rw [hc, (meets_recorded.ok hholds (Prod.ext hc rfl)).2]

/-- The counters are moved into the record unless a request for it is refused, if the clock can tell
how long the record is to live. -/
theorem refuses_of_persistMetrics (httl : config.metricsTtl < KeyValueStore.ttlLimit)
    (h : (persistMetrics config).runFrom s = (.error e, s')) :
    s.Refuses .getKey e ∨ s.Refuses .setKey e := by
  let Awaits (t : Scene) := t.world.ahead.refusal .getKey 0 = s.world.ahead.refusal .getKey 0 ∧
    t.world.ahead.refusal .setKey 0 = s.world.ahead.refusal .setKey 0
  let Why (e : Error) (_ : Scene) := s.Refuses .getKey e ∨ s.Refuses .setKey e
  have hadd (delta : Counters) : (addToRecord config delta).Meets Awaits (fun _ _ => True) Why := by
    refine ((meets_recorded_of_refusals _ _).mono (fun _ h => h) (fun _ _ h => h)
      fun _ _ => .inl).bind fun c => ?_
    refine ((Cache.meets_setKey httl _).mono (fun _ h => h) (fun _ _ h => h)
      fun _ _ => .inr).bind fun _ => ?_
    exact Act.Meets.bind (R := fun _ _ => True) (Act.meets_modify fun _ _ => trivial) fun _ =>
      Act.meets_pure fun _ _ => trivial
  have hpersist : (persistMetrics config).Meets Awaits (fun _ _ => True) Why := by
    refine Act.meets_get_bind fun before => ?_
    split
    · exact Act.meets_pure fun _ _ => trivial
    · refine Act.Meets.bind (R := fun _ => Awaits) (Act.meets_modify fun _ hs => hs.1) fun _ => ?_
      have hattempt : ((addToRecord config before.counters).attempt : Act Scene Error _).Meets
          Awaits (fun r t => Act.Ends (fun _ _ => True) Why (r, t)) Why :=
        Act.Meets.attempt (hadd before.counters)
      refine hattempt.bind fun r => ?_
      cases r with
      | ok totals => exact Act.meets_pure fun _ _ => trivial
      | error e =>
        exact Act.Meets.bind (Act.meets_modify fun _ hs => hs) fun _ => Act.meets_throw fun _ hs => hs
  exact hpersist.error ⟨rfl, rfl⟩ h

/-- Counters that have been moved can be read from the record if they are of 64 bits. -/
theorem recorded_of_persistMetrics (henabled : config.metricsEnabled = true)
    (httl : 0 < config.metricsTtl) (hfits : totals.Fits)
    (h : (persistMetrics config).runFrom s = (.ok totals, s')) :
    s'.world.keyValues.get metricsKey = some totals.toBytes ∧
      (s'.world.ahead.refusal .getKey 0 = none → (recorded.runFrom s').1 = .ok totals) := by
  have hholds : Holds s.counters s.world.keyValues s := ⟨rfl, rfl⟩
  have hmoved := (meets_persistMetrics config).ok hholds h
  rw [if_pos henabled] at hmoved
  have hget : s'.world.keyValues.get metricsKey = some totals.toBytes := by
    rw [hmoved.2.keyValues, get_recording _ _ httl]
  refine ⟨hget, fun hreads => ?_⟩
  rw [runFrom_recorded hreads, hget, Counters.read_toBytes hfits]

end Operations

namespace Deployment

variable {Obj : Type} {start d : Deployment Obj} {contexts : ContextStore} {spec : EngineSpec Obj}
  {p : Process Obj}

theorem exists_build_of_setUp {i : Nat} (hp : (setUp contexts [spec]).1.process? i = some p) :
    ∃ events, spec.build = .ok (p.engine, events) := by
  simp only [setUp, addProcesses, addProcess] at hp
  cases hbuild : spec.build with
  | error e =>
    simp only [hbuild] at hp
    rcases process?_append hp with hp | hp <;> cases hp
  | ok x =>
    simp only [hbuild] at hp
    rcases process?_append hp with hp | hp
    · cases hp
    · cases hp
      exact ⟨x.2, rfl⟩

variable [DomainObject Obj]

theorem Confined.engine (h : start.Confined d) (i : Nat) :
    (d.process? i).map (·.engine) = (start.process? i).map (·.engine) := by
  induction h with
  | start => rfl
  | command _ _ ih => exact (engine_step ..).trans ih
  | evict j key _ ih => exact (engine_evict ..).trans ih
  | disrupt x _ ih => exact ih

theorem Confined.governs {settings : Settings} (hs : spec.source = .settings (some settings))
    (h : (setUp contexts [spec]).1.Confined d) (hp : d.process? 0 = some p) :
    settings.Governs p.engine := by
  have hengine := h.engine 0
  rw [hp] at hengine
  obtain ⟨q, hq, hsame⟩ := Option.map_eq_some_iff.1 hengine.symm
  obtain ⟨events, hbuild⟩ := exists_build_of_setUp hq
  have hsame : q.engine = p.engine := hsame
  exact hsame ▸ Settings.governs_of_build hs hbuild

/-- With valid settings a process always caches. Wherever a request is not refused, a snapshot is
written back and the counters are moved into the record: neither fails for the time that it is to
live. A snapshot that has been looked up is given to a fresh session by the lower tiers, in a
deployment with the stores to itself even if any shared entries have vanished meanwhile. Counters
that have been recorded can be read, and what is shared does not outlive what is stored. -/
theorem caching_of_validate {parents : List Kind} {policies : List (Kind × Policy Obj)}
    {settings : Settings} (hvalid : settings.validate = .ok ())
    (hd : (setUp contexts [⟨parents, policies, .settings (some settings)⟩]).1.Confined d)
    (hp : d.process? 0 = some p) :
    let v := p.engine.service
    let config := p.engine.operations
    (∀ {u q s s' e}, (Cache.put v.cache u q v.cache.persistentTtl).runFrom s = (.error e, s') →
      s.Refuses .setKey e) ∧
    (∀ {s s' e}, (Operations.persistMetrics config).runFrom s = (.error e, s') →
      s.Refuses .getKey e ∨ s.Refuses .setKey e) ∧
    (∀ {u q s s'}, s.held.get? u = none → (v.snapshot u).runFrom s = (.ok q, s') →
      s'.Serves v u q) ∧
    (∀ {held u q s'}, held.get? u = none →
      (v.snapshot u).runFrom (p.scene d.world held) = (.ok q, s') →
      ∀ m : SortedMap String Snapshot, (∀ {key r}, m.get? key = some r → s'.shared.get? key = some r) →
        Scene.Serves v u q { s' with shared := m }) ∧
    (∀ {s totals s'}, config.metricsEnabled = true → totals.Fits →
      (Operations.persistMetrics config).runFrom s = (.ok totals, s') →
      s'.world.keyValues.get metricsKey = some totals.toBytes ∧
        (s'.world.ahead.refusal .getKey 0 = none →
          (Operations.recorded.runFrom s').1 = .ok totals)) ∧
    (v.cache.sharedEnabled = true →
      0 < v.cache.sharedTtl ∧ v.cache.sharedTtl ≤ v.cache.persistentTtl) := by
  intro v config
  have hgoverns : settings.Governs p.engine := hd.governs rfl hp
  have hretains : EngineSpec.Retains ⟨parents, policies, .settings (some settings)⟩ :=
    fun hbuild => (Settings.governs_of_build rfl hbuild).persistentTtl_pos
  refine ⟨Cache.refuses_of_put hgoverns.persistentTtl_lt,
    Operations.refuses_of_persistMetrics hgoverns.metricsTtl_lt, ?_, ?_,
    fun henabled hfits => Operations.recorded_of_persistMetrics henabled hgoverns.metricsTtl_pos
      hfits, ?_⟩
  · intro u q s s' hheld hrun
    have hoffers := Service.offers_of_snapshot hgoverns.persistentTtl_pos hheld hrun
    exact Scene.serves_of_offers v hoffers
  · intro held u q s' hheld hrun m hm
    have hoffers := Service.offers_of_snapshot hgoverns.persistentTtl_pos hheld hrun
    have hmirror : Scene.Mirrors v.cache (p.scene d.world held) :=
      (hd.everywhere (everywhere_mirrors_setUp hretains)).each hp
    have hleft := v.mirrors_snapshot u _ hmirror
    rw [hrun] at hleft
    exact Scene.serves_of_offers v (Scene.Mirrors.offers hleft hoffers hm)
  · intro hshared
    have hvalidShared := (Settings.validate_eq_ok.1 hvalid).shared
    rw [hgoverns.cache] at hshared ⊢
    exact ⟨(hvalidShared hshared).ttl_pos, (hvalidShared hshared).ttl_le⟩

def trialSettings : Settings := { environment := .test }

def trialSpec : EngineSpec (Bare fun _ => none) := ⟨[], [], .settings (some trialSettings)⟩

/-- The process has cached what the user 5 may do and has dropped it again. -/
def trial : Deployment (Bare fun _ => none) :=
  (steps [.store (.upsertRole 1 "editor"), .store (.assign 5 1 rootId), .openSession "a" 0,
    .session "a" (.snapshot 5), .process 0 (.invalidateShared 5)]
    (setUp .new [trialSpec]).1).2

theorem validate_trialSettings : trialSettings.validate = .ok () := by
  have hproblem : trialSettings.problem?.isNone = true := by decide +kernel
  exact Settings.validate_eq_ok.2 (Settings.problem?_eq_none.1 (Option.isNone_iff_eq_none.1 hproblem))

theorem confined_trial : (setUp .new [trialSpec]).1.Confined trial := by
  have hassigned : (setUp .new [trialSpec]).1.Confined _ :=
    (Confined.start.command (c := .store (.upsertRole 1 "editor")) rfl).command
      (c := .store (.assign 5 1 rootId)) rfl
  have hserved : (setUp .new [trialSpec]).1.Confined _ :=
    (hassigned.command (c := .openSession "a" 0) trivial).command
      (c := .session "a" (.snapshot 5)) trivial
  exact hserved.command (c := .process 0 (.invalidateShared 5)) trivial

/-- What is loaded of the user is served again once nothing is shared any more, and the counters are
found in the record. -/
theorem caching_of_validate_trial : ∃ p, trial.process? 0 = some p ∧
    (∃ q s', (p.engine.service.snapshot 5).runFrom (p.scene trial.world .empty) = (.ok q, s') ∧
      Scene.Serves p.engine.service 5 q { s' with shared := .empty }) ∧
    ∃ totals s', (Operations.persistMetrics p.engine.operations).runFrom
      (p.scene trial.world .empty) = (.ok totals, s') ∧
        s'.world.keyValues.get metricsKey = some totals.toBytes := by
  have hrun : (trial.process? 0).map (fun p =>
      (((p.engine.service.snapshot 5).runFrom (p.scene trial.world .empty)).1.isOk,
        p.engine.operations.metricsEnabled,
        ((Operations.persistMetrics p.engine.operations).runFrom
          (p.scene trial.world .empty)).1.toOption)) =
      some (true, true, some ⟨0, 0, 0, 1, 0, 1⟩) := by
    decide +kernel
  obtain ⟨p, hp, hrun⟩ := Option.map_eq_some_iff.1 hrun
  obtain ⟨hsnapshot, hrun⟩ := Prod.mk.inj hrun
  obtain ⟨henabled, hpersist⟩ := Prod.mk.inj hrun
  obtain ⟨-, -, -, hserves, hrecorded, -⟩ :=
    caching_of_validate validate_trialSettings confined_trial hp
  refine ⟨p, hp, ?_, ?_⟩
  · generalize hx : (p.engine.service.snapshot 5).runFrom (p.scene trial.world .empty) = x
      at hsnapshot
    obtain ⟨r, s'⟩ := x
    cases r with
    | error e => cases hsnapshot
    | ok q => exact ⟨q, s', rfl, hserves rfl hx .empty nofun⟩
  · have hfits : Counters.Fits ⟨0, 0, 0, 1, 0, 1⟩ := by
      unfold Counters.Fits
      decide
    generalize hx : (Operations.persistMetrics p.engine.operations).runFrom
      (p.scene trial.world .empty) = x at hpersist
    obtain ⟨r, s'⟩ := x
    cases Except.eq_ok_of_toOption hpersist
    exact ⟨_, s', rfl, (hrecorded henabled hfits hx).1⟩

end Deployment

end Clearance
