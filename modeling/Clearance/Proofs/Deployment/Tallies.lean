import Clearance.Proofs.Deployment.Frame
import Clearance.Proofs.Operations.Tallies

/-! What commands export and what the processes count. Whatever a command asks of a process, for a
session or of a guide, events are exported as they are counted, and only a flush takes counts away. -/
namespace Clearance

variable {Obj : Type}

namespace Command

/-- Whether the counters of a process are overwritten by hand. -/
def tampers : Command Obj → Bool
  | .process _ (.count (.add _)) | .process _ (.count .take) => true
  | _ => false

end Command

namespace Deployment

variable {d : Deployment Obj} {i : Nat} {p : Process Obj}

def counted (d : Deployment Obj) : Counters :=
  (d.processes.map fun p => (p.map (·.counters)).getD 0).sum

/-- What is exported, and what the processes count. -/
def tally (d : Deployment Obj) : Tally := ⟨d.world, d.counted⟩

theorem counted_set (hp : d.process? i = some p) (q : Process Obj) :
    counted { d with processes := d.processes.set i (some q) } + p.counters =
      d.counted + q.counters := by
  have hi : d.processes[i]? = some (some p) := Option.join_eq_some_iff.1 hp
  unfold counted
  rw [List.map_set]
  refine Counters.sum_set ?_ _
  rw [List.getElem?_map, hi]
  rfl

theorem counted_append (d : Deployment Obj) (p : Option (Process Obj)) :
    counted { d with processes := d.processes ++ [p] } =
      d.counted + (p.map (·.counters)).getD 0 := by
  unfold counted
  rw [List.map_append, List.sum_append, List.map_singleton, List.sum_singleton]

section Run

variable {α : Type} {keep : Held → Deployment Obj → Deployment Obj} {held : Held} {k : Counters}

/-- What is done in a process is exported and counted as it is in the scene of its session. -/
theorem agrees_of_scene (hkeep : ∀ held d, (keep held d).tally = d.tally)
    (hp : d.process? i = some p) {t : Engine Obj → Act Scene Failure α}
    (h : (p.scene d.world held).tally.Agrees k
      ((t p.engine).runFrom (p.scene d.world held)).2.tally) :
    d.tally.Agrees k ((runIn i held keep t).runFrom d).2.tally := by
  simp only [runIn, Act.runFrom_ofFun, hp]
  rw [hkeep]
  exact h.of_part (counted_set hp _)

theorem agrees_runIn (hkeep : ∀ held d, (keep held d).tally = d.tally)
    {t : Engine Obj → Act Scene Failure α} (h : ∀ e, (t e).Agrees Scene.tally) :
    (runIn i held keep t).Agrees tally := fun d => by
  cases hp : d.process? i with
  | none =>
    simp only [runIn, Act.runFrom_ofFun, hp]
    exact .refl _
  | some p => exact agrees_of_scene hkeep hp (h _ _)

theorem agrees_runInProcess {t : Engine Obj → Act Scene Failure α}
    (h : ∀ e, (t e).Agrees Scene.tally) : (runInProcess i t).Agrees tally :=
  agrees_runIn (fun _ _ => rfl) h

theorem agrees_runInSession {name : String} {t : Engine Obj → Act Scene Failure α}
    (h : ∀ e, (t e).Agrees Scene.tally) : (runInSession name t).Agrees tally := by
  refine Act.Agrees.bind (fun _ => .refl _) fun d => ?_
  cases d.sessions.get? name with
  | none => exact Act.agrees_ofExcept (.error _)
  | some s =>
    refine agrees_runIn (fun _ _ => ?_) h
    rfl

theorem agrees_runWithHolder {name : String} {t : Engine Obj → Act Scene Failure α}
    (h : ∀ e, (t e).Agrees Scene.tally) : (runWithHolder i name t).Agrees tally := by
  refine Act.Agrees.bind (fun _ => .refl _) fun d => agrees_runIn (fun _ _ => ?_) h
  rfl

theorem agrees_runOnGuide {name : String} {t : Resolver → Act Atlas Error α}
    (h : ∀ r, (t r).Leaves fun a => a.world.account) :
    (runOnGuide name t : Act (Deployment Obj) Failure α).Agrees tally := fun d => by
  simp only [runOnGuide, Act.runFrom_ofFun]
  cases d.guides.get? name with
  | none => exact .refl _
  | some g => exact .of_account (congrArg (·, d.counted) (h g.resolver ⟨d.world, g.root⟩))

end Run

theorem agrees_apart {α : Type} {t : Act (Deployment Obj) Failure α}
    (h : t.Leaves fun d => (d.world, d.processes)) : t.Agrees tally := fun d => by
  obtain ⟨hworld, hprocesses⟩ := Prod.mk.inj (h d)
  unfold tally counted
  rw [hworld, hprocesses]
  exact .refl _

theorem agrees_find_bind {α : Type} {r : SubjectRef Obj}
    {f : Subject Obj → Act (Deployment Obj) Failure α} (h : ∀ subject, (f subject).Agrees tally) :
    (r.find >>= f).Agrees tally := Act.Agrees.bind (fun _ => .refl _) h

theorem agrees_savedContext (name : String) :
    (savedContext name : Act (Deployment Obj) Failure Context).Agrees tally := by
  refine Act.Agrees.bind (fun _ => .refl _) fun d => ?_
  cases d.saved.get? name with
  | some c => exact Act.agrees_ofExcept (.ok c)
  | none => exact Act.agrees_ofExcept (.error _)

theorem agrees_save (name : Option String) (c : Context) :
    (modify (save name c) : Act (Deployment Obj) Failure PUnit).Agrees tally :=
  agrees_apart fun _ => by cases name <;> rfl

theorem agrees_actAsSuperAdmin (e : Engine Obj) (environment : Environment) (u : UserId) :
    (e.actAsSuperAdmin environment u).Agrees Scene.tally := by
  unfold Engine.actAsSuperAdmin
  split
  · exact Act.agrees_ofExcept (.error _)
  · exact (Scene.agrees_log _).bind fun _ => (Cache.agrees_put _ u _ _).mapError _

/-- What is taken from the counters of a process, if there is one of this number. -/
def takenIn (d : Deployment Obj) (i : Nat) (f : OperationsConfig → Scene → Counters) : Counters :=
  match d.process? i with
  | none => 0
  | some p => f p.engine.operations (p.scene d.world .empty)

theorem agrees_takenIn {α : Type} (d : Deployment Obj) (i : Nat)
    {f : OperationsConfig → Scene → Counters} {t : Engine Obj → Act Scene Failure α}
    (h : ∀ (e : Engine Obj) (s : Scene),
      s.tally.Agrees (f e.operations s) ((t e).runFrom s).2.tally) :
    d.tally.Agrees (d.takenIn i f) ((runInProcess i t).runFrom d).2.tally := by
  unfold takenIn
  cases hp : d.process? i with
  | none =>
    simp only [runInProcess, runIn, Act.runFrom_ofFun, hp]
    exact .refl _
  | some p => exact agrees_of_scene (fun _ _ => rfl) hp (h _ _)

section Commands

variable [DomainObject Obj]

theorem agrees_session (name : String) (c : SessionCommand Obj) :
    (c.perform name).Agrees tally := by
  have hparts (e : Engine Obj) := Service.agrees_parts e.service
  cases c with
  | check u ability subject =>
    exact agrees_find_bind fun subject => agrees_runInSession fun e =>
      (((hparts e).check u ability subject).mapError _).map _
  | authorize u ability subject =>
    exact agrees_find_bind fun subject => agrees_runInSession fun e =>
      (((hparts e).authorize u ability subject).mapError _).map _
  | hasRole u role subject =>
    exact agrees_find_bind fun subject => agrees_runInSession fun e =>
      (((hparts e).hasRole u role subject).mapError _).map _
  | isSuperAdmin u =>
    exact agrees_runInSession fun e => (((hparts e).isSuperAdmin u).mapError _).map _
  | snapshot u => exact agrees_runInSession fun e => (((hparts e).snapshot u).mapError _).map _
  | invalidate u =>
    exact agrees_runInSession fun e => (((hparts e).invalidate u).mapError _).map _
  | actAsSuperAdmin u =>
    refine agrees_runInSession fun e => Act.Agrees.map ?_ _
    cases e.environment with
    | some environment => exact (agrees_actAsSuperAdmin e environment u).mapError _
    | none => exact (Cache.agrees_put e.service.cache u .ofSuperAdmin _).mapError _

theorem agrees_resolve (via : ResolvedBy) (c : ResolveCommand Obj) :
    (c.perform via).Agrees tally := by
  have hstages := World.apart_account.leaves_steps.stages
  have hprocess (i : Nat) {t : Resolver → Act Atlas Error Context}
      (h : ∀ r, (t r).Leaves fun a => a.world.account) :
      (runInProcess i fun e : Engine Obj =>
        (Scene.onAtlas (t e.service.resolver)).mapError Failure.engine).Agrees tally :=
    agrees_runInProcess fun e => (Scene.agrees_onAtlas (h _)).mapError _
  cases c with
  | resolve subject =>
    unfold ResolveCommand.perform
    simp only [ResolveCommand.toAct, bind_assoc, pure_bind]
    refine agrees_find_bind fun subject => ?_
    cases via with
    | process i => exact hprocess i fun r => hstages.resolve r subject
    | guide name => exact agrees_runOnGuide fun r => hstages.resolve r subject
  | lookUp o =>
    cases via with
    | process i => exact hprocess i fun _ => hstages.lookUp o
    | guide name => exact agrees_runOnGuide fun _ => hstages.lookUp o
  | root =>
    cases via with
    | process i => exact hprocess i fun _ => hstages.root
    | guide name => exact agrees_runOnGuide fun _ => hstages.root

theorem agrees_cache (e : Engine Obj) (c : CacheCommand) :
    (c.perform e).Agrees Scene.tally := by
  cases c with
  | lookUp u => exact (Cache.agrees_lookUp _ u).bind fun _ => Act.agrees_ofExcept (.ok _)
  | put u rows ttl => exact (Cache.agrees_put _ u _ ttl).bind fun _ => Act.agrees_ofExcept (.ok _)
  | invalidate u =>
    exact ((Service.agrees_parts e.service).invalidate u).bind fun _ => Act.agrees_ofExcept (.ok _)

/-- What the command takes from the counters of a process to be recorded, by flushes that succeed. -/
def flushed (d : Deployment Obj) : Command Obj → Counters
  | .process i .persist => d.takenIn i Operations.taken
  | .process i (.flush period span) =>
    d.takenIn i fun config => Operations.takenBy config ((span - 1) / period)
  | _ => 0

/-- How many loads succeed while the command is carried out, which are those that reach the store. A
command on the stores loads by itself and not by the loader. -/
def loads (d : Deployment Obj) : Command Obj → Nat
  | .store _ => 0
  | c => d.world.served ((d.step c).2.world.callCount .loadAssignments)

theorem agrees_process (d : Deployment Obj) (i : Nat) {c : ProcessCommand Obj}
    (hc : (Command.process i c).tampers = false) :
    d.tally.Agrees (d.flushed (.process i c)) ((c.perform i).runFrom d).2.tally := by
  have hparts (e : Engine Obj) := Service.agrees_parts e.service
  cases c with
  | invalidateShared u =>
    exact agrees_runInProcess (fun e => (((hparts e).drop u).mapError _).map _) d
  | info => exact agrees_runInProcess (fun _ => Act.agrees_ofExcept (.ok _)) d
  | evaluate u ability subject =>
    exact agrees_find_bind (fun _ => agrees_runInProcess fun _ => Act.agrees_ofExcept (.ok _)) d
  | hasPolicy k => exact agrees_runInProcess (fun _ => Act.agrees_ofExcept (.ok _)) d
  | warm users =>
    exact agrees_runInProcess (fun e => (((hparts e).warmCache users).mapError _).map _) d
  | checkBatch u abilities subject =>
    exact agrees_find_bind (fun subject => agrees_runInProcess fun e =>
      (((hparts e).checkBatch u abilities subject).mapError _).map _) d
  | invalidateAll u =>
    exact agrees_runInProcess (fun e => (((hparts e).invalidateAllLevels u).mapError _).map _) d
  | invalidateBatch users =>
    exact agrees_runInProcess (fun e => (((hparts e).invalidateBatch users).mapError _).map _) d
  | report =>
    exact agrees_runInProcess
      (fun e => ((Operations.agrees_metricsReport _ _).mapError _).map _) d
  | persist =>
    refine agrees_takenIn d i fun e s => ?_
    rw [Act.runFrom_map]
    exact Operations.agrees_persistMetrics e.operations s
  | flush period span =>
    let f (config : OperationsConfig) := Operations.takenBy config ((span - 1) / period)
    refine agrees_takenIn d i (f := f) fun e s => ?_
    rw [Act.runFrom_map]
    exact Operations.agrees_flushFor e.operations period span s
  | count c =>
    cases c with
    | read | hitRatio => exact agrees_runInProcess (fun _ _ => .refl _) d
    | add | take => cases hc

/-- Whatever is asked of processes is exported as it is counted, but for what is flushed. -/
theorem agrees_step (d : Deployment Obj) {c : Command Obj} (hstore : ∀ s, c ≠ .store s)
    (hc : c.tampers = false) : d.tally.Agrees (d.flushed c) (d.step c).2.tally := by
  show d.tally.Agrees _ ((perform c).runFrom d).2.tally
  cases c with
  | store s => exact absurd rfl (hstore s)
  | loadSnapshot u =>
    rw [perform, onWorld, Act.runFrom_on, Act.runFrom_map]
    exact d.tally.agrees_loadSnapshot u
  | state => exact .refl _
  | openSession name i =>
    refine Act.Agrees.bind (fun _ => .refl _) (fun d => ?_) d
    cases d.process? i with
    | none => exact Act.agrees_ofExcept (.error _)
    | some p =>
      exact Act.Agrees.bind (agrees_apart fun _ => rfl) fun _ => Act.agrees_ofExcept (.ok _)
  | closeSession name => exact agrees_apart (fun _ => rfl) d
  | session name c => exact agrees_session name c d
  | makeGuide name parents maxDepth => exact agrees_apart (fun _ => rfl) d
  | resolve via c saveAs =>
    exact (agrees_resolve via c).bind (fun c => (agrees_save saveAs c).bind fun _ =>
      Act.agrees_ofExcept (.ok _)) d
  | contains a b =>
    exact (agrees_savedContext a).bind (fun _ => (agrees_savedContext b).bind fun _ =>
      Act.agrees_ofExcept (.ok _)) d
  | cache i holder c => exact agrees_runWithHolder (fun e => (agrees_cache e c).mapError _) d
  | holding holder u => exact .refl _
  | process i c => exact agrees_process d i hc

end Commands

end Deployment

end Clearance
