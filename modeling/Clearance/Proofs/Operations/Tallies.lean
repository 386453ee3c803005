import Clearance.Proofs.Operations.Counting
import Clearance.Proofs.Operations.Record
import Clearance.Proofs.World.Loads
import Mathlib.Tactic.Abel

/-! What is exported, against what processes count themselves. Events are counted in two places, and
only the counters of a process are ever taken away; a load that succeeds is counted for the export
alone. -/
namespace Clearance

/-- What is exported of events and loads, and what decides about loads. -/
def World.account (w : World) :
    Counters × Nat × AssignmentStore × (Call → Nat → Option StorageError) × Nat :=
  (w.metrics.events, w.loading)

theorem World.apart_account : World.Apart account where
  noting w c hc := by
    have hne : c ≠ .loadAssignments := by
      rintro rfl
      cases hc
    rw [account, loading, callCount_noting, if_neg hne]
    rfl
  changed _ _ _ _ _ := rfl

/-- A world with what it exports, and the counters that are kept beside it. -/
structure Tally where
  world : World
  counters : Counters

namespace Tally

/-- Meanwhile as much has been exported as has been counted, of which so much has been taken from the
counters; and the loads have been exported. -/
structure Agrees (x : Tally) (k : Counters) (y : Tally) : Prop where
  events : y.world.metrics.events + x.counters = x.world.metrics.events + (y.counters + k)
  loads : x.world.Loads y.world

variable {x y z : Tally} {k k' n : Counters}

theorem Agrees.of_counted (hexported : y.world.metrics.events = x.world.metrics.events + n)
    (hcounted : y.counters = x.counters + n) (hloads : x.world.Loads y.world) : x.Agrees 0 y where
  events := by
    rw [hexported, hcounted]
    abel
  loads := hloads

theorem Agrees.of_account (h : (y.world.account, y.counters) = (x.world.account, x.counters)) :
    x.Agrees 0 y := by
  obtain ⟨hworld, hcounters⟩ := Prod.mk.inj h
  obtain ⟨hevents, hloading⟩ := Prod.mk.inj hworld
  exact .of_counted (hevents.trans (add_zero _).symm) (hcounters.trans (add_zero _).symm)
    (.of_loading hloading)

theorem Agrees.refl (x : Tally) : x.Agrees 0 x := .of_account rfl

theorem Agrees.trans (h : x.Agrees k y) (h' : y.Agrees k' z) : x.Agrees (k + k') z where
  events := by
    refine add_right_cancel (b := y.counters) ?_
    calc z.world.metrics.events + x.counters + y.counters
        = (z.world.metrics.events + y.counters) + x.counters := by abel
      _ = (y.world.metrics.events + x.counters) + (z.counters + k') := by rw [h'.events]; abel
      _ = x.world.metrics.events + (z.counters + (k + k')) + y.counters := by rw [h.events]; abel
  loads := h.loads.trans h'.loads

theorem Agrees.trans_zero (h : x.Agrees k y) (h' : y.Agrees 0 z) : x.Agrees k z := by
  have hboth := h.trans h'
  rwa [add_zero] at hboth

theorem Agrees.of_part (h : x.Agrees k y) {c c' : Counters}
    (hpart : c' + x.counters = c + y.counters) : Agrees ⟨x.world, c⟩ k ⟨y.world, c'⟩ where
  events := by
    refine add_right_cancel (b := x.counters) ?_
    calc y.world.metrics.events + c + x.counters
        = (y.world.metrics.events + x.counters) + c := add_right_comm ..
      _ = x.world.metrics.events + k + (c + y.counters) := by rw [h.events]; abel
      _ = x.world.metrics.events + (c' + k) + x.counters := by rw [← hpart]; abel
  loads := h.loads

end Tally

namespace Act

variable {σ ε ε' α β : Type} {f : σ → Tally}

/-- What is exported while the computation runs is counted, too, and the other way round. -/
def Agrees (f : σ → Tally) (t : Act σ ε α) : Prop := ∀ s, (f s).Agrees 0 (f (t.runFrom s).2)

theorem agrees_of_leaves {t : Act σ ε α}
    (h : t.Leaves fun s => ((f s).world.account, (f s).counters)) : t.Agrees f :=
  fun s => .of_account (h s)

theorem agrees_ofExcept (r : Except ε α) : (ofExcept r : Act σ ε α).Agrees f := fun _ => .refl _

theorem Agrees.bind {t : Act σ ε α} {g : α → Act σ ε β} (ht : t.Agrees f)
    (hg : ∀ a, (g a).Agrees f) : (t >>= g).Agrees f := by
  intro s
  have hkeeps {γ : Type} {t : Act σ ε γ} (ht : t.Agrees f) :
      t.Keeps fun s' => (f s).Agrees 0 (f s') := fun s' hs' => hs'.trans_zero (ht s')
  exact (hkeeps ht).bind (fun a => hkeeps (hg a)) s (.refl _)

theorem Agrees.mapError {t : Act σ ε' α} (h : t.Agrees f) (g : ε' → ε) :
    (t.mapError g).Agrees f := h

theorem Agrees.attempt {t : Act σ ε' α} (h : t.Agrees f) : (t.attempt : Act σ ε _).Agrees f := h

theorem Agrees.map {t : Act σ ε β} (h : t.Agrees f) (g : β → α) : (g <$> t).Agrees f := fun s => by
  rw [runFrom_map]
  exact h s

end Act

namespace World

theorem leaves_account_getKey (key : String) : (getKey key).Leaves account :=
  leaves_request (fun _ => rfl) fun _ => rfl

theorem leaves_account_setKey (key : String) (value : ByteArray) (ttl : Nat) :
    (setKey key value ttl).Leaves account :=
  leaves_request (fun _ => rfl) fun w => by
    cases w.keyValues.set key value ttl <;> rfl

theorem leaves_account_deleteKey (key : String) : (deleteKey key).Leaves account :=
  leaves_request (fun _ => rfl) fun _ => rfl

theorem leaves_events_loadSnapshot (u : UserId) :
    (loadSnapshot u).Leaves fun w => w.metrics.events := by
  have hload : (loadAssignments u).Leaves fun w => w.metrics.events :=
    leaves_request (fun _ => rfl) fun _ => rfl
  refine (hload.mapError _).bind fun rows => Act.Leaves.bind (fun _ => rfl) fun _ => ?_
  exact Act.Leaves.bind (fun _ => rfl) fun _ => Act.leaves_pure _

end World

/-- Loads are exported by the loader, and no process counts them. -/
theorem Tally.agrees_loadSnapshot (x : Tally) (u : UserId) :
    x.Agrees 0 ⟨((World.loadSnapshot u).runFrom x.world).2, x.counters⟩ :=
  .of_counted (n := 0) ((World.leaves_events_loadSnapshot u x.world).trans (add_zero _).symm)
    (add_zero _).symm (World.loads_loadSnapshot u x.world)

namespace Scene

variable {ε α : Type} {s s' : Scene}

/-- What is exported, and what the process counts. -/
def tally (s : Scene) : Tally := ⟨s.world, s.counters⟩

theorem agrees_onAtlas {t : Act Atlas ε α} (h : t.Leaves fun a => a.world.account) :
    (onAtlas t).Agrees tally :=
  Act.agrees_of_leaves fun s => congrArg (·, s.counters) (h s.toAtlas)

theorem agrees_onWorld {t : Act World ε α} (h : t.Leaves World.account) :
    (onWorld t).Agrees tally := agrees_onAtlas fun a => h a.world

theorem agrees_ask {t : Act World StorageError α} (h : t.Leaves World.account) :
    (ask t).Agrees tally := (agrees_onWorld h).mapError _

theorem agrees_modify {g : Scene → Scene}
    (h : ∀ s, ((g s).world.account, (g s).counters) = (s.world.account, s.counters)) :
    (modify g : Act Scene ε PUnit).Agrees tally := Act.agrees_of_leaves h

theorem agrees_log (e : Event) : (log e : Act Scene ε Unit).Agrees tally :=
  agrees_modify fun _ => rfl

end Scene

namespace Cache

open Scene

variable {ε : Type} (c : CacheConfig) (u : UserId)

theorem agrees_countHit (t : Tier) : (countHit t : Act Scene ε Unit).Agrees tally := fun _ =>
  .of_counted (n := .ofHit t) (by cases t <;> rfl) (by cases t <;> rfl)
    (.of_loading (by cases t <;> rfl))

theorem agrees_countMiss : (countMiss : Act Scene ε Unit).Agrees tally := fun _ =>
  .of_counted (n := { misses := 1 }) rfl rfl (.of_loading rfl)

theorem agrees_countInvalidation : (countInvalidation : Act Scene ε Unit).Agrees tally := fun _ =>
  .of_counted (n := { invalidations := 1 }) rfl rfl (.of_loading rfl)

theorem agrees_hold (p : Snapshot) : (hold u p : Act Scene ε Unit).Agrees tally :=
  agrees_modify fun _ => rfl

theorem agrees_share (p : Snapshot) : (share c u p : Act Scene ε Unit).Agrees tally :=
  agrees_modify fun s => by split <;> rfl

theorem agrees_lookUpPersistent : (lookUpPersistent c u).Agrees tally := by
  refine (agrees_ask (World.leaves_account_getKey _)).bind fun found => ?_
  cases found with
  | none => exact agrees_countMiss.bind fun _ => Act.agrees_ofExcept (.ok _)
  | some bytes =>
    cases hp : Snapshot.ofBytes? bytes with
    | some p =>
      simp only [hp]
      refine (agrees_share c u p).bind fun _ => (agrees_hold u p).bind fun _ => ?_
      exact (agrees_countHit _).bind fun _ => (agrees_log _).bind fun _ =>
        Act.agrees_ofExcept (.ok _)
    | none =>
      simp only [hp]
      refine (agrees_log _).bind fun _ => ?_
      refine (agrees_ask (World.leaves_account_deleteKey _)).bind fun _ => ?_
      exact agrees_countMiss.bind fun _ => Act.agrees_ofExcept (.ok _)

theorem agrees_lookUp : (lookUp c u).Agrees tally := by
  rw [lookUp_eq]
  refine Act.Agrees.bind (fun _ => .refl _) fun held => ?_
  cases held with
  | some p => exact (agrees_countHit _).bind fun _ => Act.agrees_ofExcept (.ok _)
  | none =>
    refine Act.Agrees.bind (fun _ => .refl _) fun shared => ?_
    cases shared with
    | some p =>
      exact (agrees_hold u p).bind fun _ => (agrees_countHit _).bind fun _ =>
        (agrees_log _).bind fun _ => Act.agrees_ofExcept (.ok _)
    | none => exact agrees_lookUpPersistent c u

theorem agrees_put (p : Snapshot) (ttl : Nat) : (put c u p ttl).Agrees tally :=
  (agrees_ask (World.leaves_account_setKey _ _ _)).bind fun _ => (agrees_share c u p).bind fun _ =>
    agrees_hold u p

theorem agrees_invalidateShared : (invalidateShared u).Agrees tally := by
  refine Act.Agrees.bind (agrees_modify fun _ => rfl) fun _ => ?_
  exact (agrees_ask (World.leaves_account_deleteKey _)).bind fun _ => agrees_countInvalidation

end Cache

namespace Service

open Scene

variable {Obj : Type} (v : Service Obj) (u : UserId)

theorem agrees_snapshot : (v.snapshot u).Agrees tally := by
  refine (Cache.agrees_lookUp v.cache u).bind fun found => ?_
  cases found with
  | some x => exact Act.agrees_ofExcept (.ok _)
  | none =>
    have hload : (onWorld (World.loadSnapshot u)).Agrees tally :=
      fun s => s.tally.agrees_loadSnapshot u
    exact hload.bind fun p => (Cache.agrees_put v.cache u p _).bind fun _ =>
      Act.agrees_ofExcept (.ok p)

variable [DomainObject Obj]

/-- What a service is requested is exported as it is counted. -/
theorem agrees_parts : v.Parts fun t => t.Agrees tally where
  ofExcept := Act.agrees_ofExcept
  bind := Act.Agrees.bind
  mapError g h := h.mapError g
  attempt h := h.attempt
  fresh h := fun s => h { s with held := .empty }
  snapshot := agrees_snapshot v
  resolve subject :=
    Scene.agrees_onAtlas (World.apart_account.leaves_steps.stages.resolve v.resolver subject)
  drop := Cache.agrees_invalidateShared
  letGo _ := agrees_modify fun _ => rfl
  log _ := agrees_log _
  count {_ f} hf := agrees_modify fun s => by
    obtain ⟨hevents, hloads⟩ := hf s.world.metrics
    show (((f s.world.metrics).events, (f s.world.metrics).snapshotLoads, _), _) = _
    rw [hevents, hloads]
    rfl
  batch n := fun _ => .of_counted (n := { batchChecks := n }) rfl rfl (.of_loading rfl)

end Service

namespace Operations

open Scene

variable {config : OperationsConfig}

theorem leaves_account_recorded : recorded.Leaves fun s => (s.world.account, s.counters) := by
  have hget : (ask (World.getKey metricsKey)).Leaves fun s => (s.world.account, s.counters) :=
    fun s => congrArg (·, s.counters) (World.leaves_account_getKey metricsKey s.world)
  refine hget.bind fun found => ?_
  cases found with
  | none => exact Act.leaves_pure _
  | some bytes =>
    dsimp only
    split
    · exact Act.leaves_pure _
    · exact Act.Leaves.bind (fun _ => rfl) fun _ => Act.leaves_pure _

theorem agrees_metricsReport (cache : CacheConfig) (config : OperationsConfig) :
    (metricsReport cache config).Agrees tally :=
  (Act.agrees_of_leaves leaves_account_recorded).bind fun _ =>
    Act.Agrees.bind (fun _ => .refl _) fun _ => Act.agrees_ofExcept (.ok _)

theorem leaves_account_addToRecord (config : OperationsConfig) (delta : Counters) :
    (addToRecord config delta).Leaves fun s => s.world.account := by
  have hrecorded : recorded.Leaves fun s => s.world.account :=
    fun s => congrArg Prod.fst (leaves_account_recorded s)
  refine hrecorded.bind fun r => ?_
  refine Act.Leaves.bind (fun s => World.leaves_account_setKey _ _ _ s.world) fun _ => ?_
  exact Act.Leaves.bind (fun _ => rfl) fun _ => Act.leaves_pure _

theorem leaves_account_persistMetrics (config : OperationsConfig) :
    (persistMetrics config).Leaves fun s => s.world.account := by
  refine Act.Leaves.bind (fun _ => rfl) fun before => ?_
  split
  · exact Act.leaves_pure _
  · refine Act.Leaves.bind (fun _ => rfl) fun _ => ?_
    refine (leaves_account_addToRecord config _).attempt.bind fun r => ?_
    cases r with
    | ok totals => exact Act.leaves_pure _
    | error e => exact Act.Leaves.bind (fun _ => rfl) fun _ => Act.leaves_throw _

/-- What is taken from the counters of a process to be recorded: all that they hold, if that
succeeds and counters are recorded at all. -/
def taken (config : OperationsConfig) (s : Scene) : Counters :=
  if config.metricsEnabled && ((persistMetrics config).runFrom s).1.isOk then s.counters else 0

/-- What is taken if that is tried so often. -/
def takenBy (config : OperationsConfig) : Nat → Scene → Counters
  | 0, _ => 0
  | n + 1, s => taken config s + takenBy config n ((flush config 1).runFrom s).2

/-- Moving the counters exports nothing, and takes from them what has been recorded. -/
theorem agrees_persistMetrics (config : OperationsConfig) (s : Scene) :
    s.tally.Agrees (taken config s) ((persistMetrics config).runFrom s).2.tally := by
  have haccount := leaves_account_persistMetrics config s
  refine ⟨?_, .of_loading (congrArg Prod.snd haccount)⟩
  refine (congrArg (· + s.counters) (congrArg Prod.fst haccount)).trans ?_
  refine congrArg (s.world.metrics.events + ·) ?_
  show s.counters = _ + taken config s
  unfold taken
  obtain ⟨totals, hout, henabled, -, hleft⟩ | ⟨hout, hleft⟩ :=
    persistMetrics_cases config (s := s) ⟨rfl, rfl⟩
  · have hmoved : (config.metricsEnabled && ((persistMetrics config).runFrom s).1.isOk) = true := by
      rw [henabled, hout]
      rfl
    rw [if_pos hmoved]
    exact ((congrArg (· + s.counters) hleft.counters).trans (zero_add _)).symm
  · have hkept : (config.metricsEnabled && ((persistMetrics config).runFrom s).1.isOk) = false := by
      obtain ⟨-, hdisabled⟩ | ⟨e, he⟩ := hout
      · rw [hdisabled, Bool.false_and]
      · rw [he]
        exact Bool.and_false _
    rw [hkept, if_neg Bool.false_ne_true, add_zero]
    exact hleft.counters.symm

theorem left_flush_succ (config : OperationsConfig) (n : Nat) (s : Scene) :
    ((flush config (n + 1)).runFrom s).2 =
      ((flush config n).runFrom ((flush config 1).runFrom s).2).2 := by
  have hattempt : ((persistMetrics config).attempt : Act Scene Error _).runFrom s = _ :=
    Act.runFrom_attempt (persistMetrics config) s
  rw [flush, Act.runFrom_bind_ok hattempt, flush, Act.runFrom_bind_ok hattempt]
  cases ((persistMetrics config).runFrom s).1 <;> rfl

theorem agrees_flush_one (config : OperationsConfig) (s : Scene) :
    s.tally.Agrees (taken config s) ((flush config 1).runFrom s).2.tally := by
  have hattempt : ((persistMetrics config).attempt : Act Scene Error _).runFrom s = _ :=
    Act.runFrom_attempt (persistMetrics config) s
  have hmoved := agrees_persistMetrics config s
  rw [flush, Act.runFrom_bind_ok hattempt]
  cases ((persistMetrics config).runFrom s).1 with
  | ok totals => exact hmoved
  | error e =>
    have hlog : (log (.flushFailed e) : Act Scene Error Unit).Agrees tally := agrees_log _
    exact hmoved.trans_zero (hlog _)

theorem agrees_flush (config : OperationsConfig) (n : Nat) (s : Scene) :
    s.tally.Agrees (takenBy config n s) ((flush config n).runFrom s).2.tally := by
  induction n generalizing s with
  | zero => exact .refl _
  | succ n ih =>
    rw [left_flush_succ]
    exact (agrees_flush_one config s).trans (ih _)

theorem takenBy_of_disabled (h : config.metricsEnabled = false) (n : Nat) (s : Scene) :
    takenBy config n s = 0 := by
  induction n generalizing s with
  | zero => rfl
  | succ n ih => rw [takenBy, ih, add_zero, taken, h, Bool.false_and, if_neg Bool.false_ne_true]

theorem agrees_flushFor (config : OperationsConfig) (period span : Nat) (s : Scene) :
    s.tally.Agrees (takenBy config ((span - 1) / period) s)
      ((flushFor config period span).runFrom s).2.tally := by
  unfold flushFor
  cases henabled : config.metricsEnabled with
  | false =>
    rw [takenBy_of_disabled henabled]
    exact .refl _
  | true =>
    simp only [Bool.not_true, Bool.false_eq_true, if_false]
    rw [bind_pure_comp, Act.runFrom_map]
    exact agrees_flush config _ s

end Operations

end Clearance
