import Clearance.Operations.Report
import Clearance.Proofs.Condition
import Clearance.Proofs.Operations.Parts

/-! Conditions that every operation keeps. What a service is asked is made of a few steps, and a
condition that these keep is kept whatever is asked, for one user or for many. -/
namespace Clearance

variable {Obj : Type} [DomainObject Obj]

/-- The condition is kept by what the operations of the service are made of, except that users are
dropped from the lower tiers. -/
structure Service.Care (v : Service Obj) (J : Scene → Prop) : Prop where
  fresh {s : Scene} : J s → J { s with held := .empty }
  restored {s s' : Scene} : J s → J s' → J { s' with held := s.held }
  counters {s : Scene} (c : Counters) : J s → J { s with counters := c }
  count {s : Scene} (f : Metrics → Metrics) : J s → J { s with world := s.world.count f }
  log {s : Scene} {e : Event} : e.isDrop = false → J s → J { s with world := s.world.log e }
  resolve (subject : Subject Obj) : (v.resolve subject).Keeps J
  find (o : Owner) : (Scene.onAtlas (Resolver.lookUp o)).Keeps J
  lookUp (u : UserId) : (Cache.lookUp v.cache u).Keeps J
  load (u : UserId) : (Scene.onWorld (World.loadSnapshot u)).Keeps J
  snapshot (u : UserId) : (v.snapshot u).Keeps J
  letGo (u : UserId) : (Scene.letGo u : Act Scene Error Unit).Keeps J
  readRecord : (Scene.ask (World.getKey metricsKey)).Keeps J
  writeRecord (bytes : ByteArray) (ttl : Nat) :
    (Scene.ask (World.setKey metricsKey bytes ttl)).Keeps J

/-- The condition is kept by what the operations of the service are made of. -/
structure Service.Upkeep (v : Service Obj) (J : Scene → Prop) : Prop extends v.Care J where
  unshare (u : UserId) : (Cache.invalidateShared u).Keeps J

namespace Service

variable {v : Service Obj} {J : Scene → Prop}

namespace Care

open Operations

variable (h : v.Care J) {ε α : Type}

include h

theorem keeps_log {e : Event} (he : e.isDrop = false) :
    (Scene.log e : Act Scene ε Unit).Keeps J := Act.keeps_modify fun _ => h.log he

theorem keeps_count (f : Metrics → Metrics) :
    (Scene.tell (World.count f) : Act Scene ε Unit).Keeps J := Act.keeps_modify fun _ => h.count f

theorem keeps_counters (f : Scene → Counters) :
    (modify fun s => { s with counters := f s } : Act Scene ε Unit).Keeps J :=
  Act.keeps_modify fun s => h.counters (f s)

theorem keeps_inFreshSession {t : Act Scene ε α} (ht : t.Keeps J) :
    (Service.inFreshSession t).Keeps J := fun _ hs => h.restored hs (ht _ (h.fresh hs))

theorem elements : v.Elements fun t => t.Keeps J where
  ofExcept := Act.keeps_ofExcept
  bind := Act.Keeps.bind
  mapError g ht := ht.mapError g
  attempt ht := ht.attempt
  fresh := h.keeps_inFreshSession
  snapshot := h.snapshot
  resolve := h.resolve
  letGo := h.letGo
  log := h.keeps_log
  count _ := h.keeps_count _
  batch _ := (h.keeps_counters _).bind fun _ => h.keeps_count _

section Record

theorem recorded : recorded.Keeps J := by
  refine h.readRecord.bind fun found => ?_
  cases found with
  | none => exact Act.keeps_pure _
  | some bytes =>
    dsimp only
    split
    · exact Act.keeps_pure _
    · exact (h.keeps_log rfl).bind fun _ => Act.keeps_pure _

theorem metricsReport (cache : CacheConfig) (config : OperationsConfig) :
    (metricsReport cache config).Keeps J :=
  h.recorded.bind fun _ => Act.keeps_get.bind fun _ => Act.keeps_pure _

theorem addToRecord (config : OperationsConfig) (delta : Counters) :
    (addToRecord config delta).Keeps J :=
  h.recorded.bind fun _ => (h.writeRecord _ _).bind fun _ => (h.keeps_log rfl).bind fun _ =>
    Act.keeps_pure _

theorem persistMetrics (config : OperationsConfig) : (persistMetrics config).Keeps J := by
  refine Act.keeps_get.bind fun s => ?_
  split
  · exact Act.keeps_pure _
  · refine (h.keeps_counters _).bind fun _ => ?_
    refine (h.addToRecord config _).attempt.bind fun r => ?_
    split
    · exact Act.keeps_pure _
    · exact (h.keeps_counters _).bind fun _ => Act.keeps_throw _

theorem flush (config : OperationsConfig) (n : Nat) : (flush config n).Keeps J := by
  induction n with
  | zero => exact Act.keeps_pure _
  | succ n ih =>
    rw [Operations.flush]
    refine (h.persistMetrics config).attempt.bind fun r => ?_
    cases r with
    | ok c => exact ih
    | error e => exact (h.keeps_log rfl).bind fun _ => ih

theorem flushFor (config : OperationsConfig) (period span : Nat) :
    (flushFor config period span).Keeps J := by
  unfold Operations.flushFor
  split
  · exact Act.keeps_pure _
  · exact (h.flush config _).bind fun _ => Act.keeps_pure _

end Record

end Care

/-- Whatever the service is asked keeps the condition. -/
theorem Upkeep.parts (h : v.Upkeep J) : v.Parts fun t => t.Keeps J where
  toElements := h.elements
  drop := h.unshare

end Service

end Clearance
