import Clearance.Deployment.Perform
import Clearance.Proofs.Operations.Upkeep

/-! What commands are made of. A property of computations that survives sequencing holds of every
command once it holds of what is done in a process, for a session, by a guide and on the stores. -/
namespace Clearance

variable {Obj : Type}

namespace Command

/-- Whether the command opens, uses or closes the session of this name. -/
def concerns (name : String) : Command Obj → Bool
  | .openSession n _ | .closeSession n | .session n _ => n = name
  | _ => false

/-- An engine that carries out the command puts this snapshot of the user into its cache. -/
def Puts (e : Engine Obj) (u : UserId) (p : Snapshot) (ttl : Nat) : Command Obj → Prop
  | .session _ (.actAsSuperAdmin v) =>
    v = u ∧ p = .ofSuperAdmin ∧ ttl = e.service.cache.persistentTtl
  | .cache _ _ (.put v rows t) => v = u ∧ p = .ofRows rows ∧ ttl = t
  | _ => False

/-- The users whom the command drops from the lower tiers of a process, as far as it gets. -/
def clears : Command Obj → List UserId
  | .session _ (.invalidate u) | .cache _ _ (.invalidate u) => [u]
  | .process _ (.invalidateShared u) | .process _ (.invalidateAll u) => [u]
  | .process _ (.invalidateBatch users) | .process _ (.warm users) => users
  | _ => []

variable [DomainObject Obj]

/-- The condition on what the sessions of an engine see is kept by what the command may ask of an
engine or of the stores, which is to drop no users but its own. -/
structure Observes (J : Engine Obj → Scene → Prop) (c : Command Obj) : Prop where
  care (e : Engine Obj) : e.service.Care (J e)
  unshare (e : Engine Obj) {u : UserId} : u ∈ c.clears → (Cache.invalidateShared u).Keeps (J e)
  guide (e : Engine Obj) (r : Resolver) (subject : Subject Obj) :
    (Scene.onAtlas (r.resolve subject)).Keeps (J e)
  put {e : Engine Obj} {u : UserId} {p : Snapshot} {ttl : Nat} : c.Puts e u p ttl →
    (Cache.put e.service.cache u p ttl).Keeps (J e)
  store {s : StoreCommand} (e : Engine Obj) : c = .store s →
    (Scene.onWorld s.perform).Keeps (J e)

/-- The condition on what the sessions of an engine see is kept by all that the command may ask of
an engine or of the stores. -/
structure Upholds (J : Engine Obj → Scene → Prop) (c : Command Obj) : Prop where
  upkeep (e : Engine Obj) : e.service.Upkeep (J e)
  guide (e : Engine Obj) (r : Resolver) (subject : Subject Obj) :
    (Scene.onAtlas (r.resolve subject)).Keeps (J e)
  put {e : Engine Obj} {u : UserId} {p : Snapshot} {ttl : Nat} : c.Puts e u p ttl →
    (Cache.put e.service.cache u p ttl).Keeps (J e)
  store {s : StoreCommand} (e : Engine Obj) : c = .store s →
    (Scene.onWorld s.perform).Keeps (J e)

theorem Upholds.observes {J : Engine Obj → Scene → Prop} {c : Command Obj} (h : c.Upholds J) :
    c.Observes J where
  care e := (h.upkeep e).toCare
  unshare e u _ := (h.upkeep e).unshare u
  guide := h.guide
  put := h.put
  store := h.store

theorem upholds_true (c : Command Obj) : c.Upholds fun _ _ => True where
  upkeep _ := ⟨⟨id, fun _ => id, fun _ => id, fun _ => id, fun _ => id, fun _ _ => id, fun _ _ => id,
    fun _ _ => id, fun _ _ => id, fun _ _ => id, fun _ _ => id, fun _ => id, fun _ _ _ => id⟩,
    fun _ _ => id⟩
  guide _ _ _ _ := id
  put _ _ := id
  store _ _ _ := id

end Command

theorem Engine.keeps_actAsSuperAdmin [DomainObject Obj] {e : Engine Obj} {J : Scene → Prop}
    {u : UserId} (h : e.service.Care J) (hput : (e.service.actAsSuperAdmin u).Keeps J)
    (environment : Environment) : (e.actAsSuperAdmin environment u).Keeps J := by
  unfold Engine.actAsSuperAdmin
  split
  · exact Act.keeps_throw _
  · exact (h.keeps_log rfl).bind fun _ => hput.mapError _

theorem SessionCommand.perform_of [DomainObject Obj] {J : Engine Obj → Scene → Prop} {name : String}
    {P : ∀ {α : Type}, Act (Deployment Obj) Failure α → Prop} (c : SessionCommand Obj)
    (hc : Command.Observes J (.session name c))
    (hbind : ∀ {α β : Type} {t : Act (Deployment Obj) Failure α}
      {f : α → Act (Deployment Obj) Failure β}, P t → (∀ a, P (f a)) → P (t >>= f))
    (hfind : ∀ r : SubjectRef Obj, P r.find)
    (hrun : ∀ {t : Engine Obj → Act Scene Failure Answer}, (∀ e, (t e).Keeps (J e)) →
      P (Deployment.runInSession name t)) : P (c.perform name) := by
  have hasked (e : Engine Obj) := (hc.care e).elements
  cases c with
  | check u ability subject =>
    exact hbind (hfind _) fun subject => hrun fun e =>
      (((hasked e).check u ability subject).mapError _).map _
  | authorize u ability subject =>
    exact hbind (hfind _) fun subject => hrun fun e =>
      (((hasked e).authorize u ability subject).mapError _).map _
  | hasRole u role subject =>
    exact hbind (hfind _) fun subject => hrun fun e =>
      (((hasked e).hasRole u role subject).mapError _).map _
  | isSuperAdmin u => exact hrun fun e => (((hasked e).isSuperAdmin u).mapError _).map _
  | snapshot u => exact hrun fun e => (((hasked e).snapshot u).mapError _).map _
  | invalidate u =>
    refine hrun fun e => Act.Keeps.map (Act.Keeps.mapError ?_ _) _
    exact (hasked e).invalidate (hc.unshare e (List.mem_singleton_self u))
  | actAsSuperAdmin u =>
    refine hrun fun e => Act.Keeps.map ?_ _
    have hput : (e.service.actAsSuperAdmin u).Keeps (J e) := hc.put ⟨rfl, rfl, rfl⟩
    cases e.environment with
    | some environment =>
      exact (Engine.keeps_actAsSuperAdmin (hc.care e) hput environment).mapError _
    | none => exact hput.mapError _

namespace Deployment

variable [DomainObject Obj]

/-- The property holds of what commands are made of where these are about sessions of certain names
alone, and of sequences of what it holds of. What a command asks of an engine keeps a condition on
what the sessions of the engine see. -/
structure Steps (J : Engine Obj → Scene → Prop) (among : String → Prop)
    (P : ∀ {α : Type}, Act (Deployment Obj) Failure α → Prop) : Prop where
  ofExcept {α : Type} (r : Except Failure α) : P (Act.ofExcept r)
  bind {α β : Type} {t : Act (Deployment Obj) Failure α}
    {f : α → Act (Deployment Obj) Failure β} : P t → (∀ a, P (f a)) → P (t >>= f)
  find (r : SubjectRef Obj) : P r.find
  savedContext (name : String) : P (savedContext name)
  save (name : Option String) (c : Context) : P (modify (save name c))
  onWorld {t : Act World Failure Answer} :
    (∀ e, (Scene.onWorld t).Keeps (J e)) → P (onWorld t)
  runInProcess {α : Type} {i : Nat} {t : Engine Obj → Act Scene Failure α} :
    (∀ e, (t e).Keeps (J e)) → P (runInProcess i t)
  runInSession {name : String} {t : Engine Obj → Act Scene Failure Answer} :
    among name → (∀ e, (t e).Keeps (J e)) → P (runInSession name t)
  runWithHolder {i : Nat} {name : String} {t : Engine Obj → Act Scene Failure Answer} :
    (∀ e, (t e).Keeps (J e)) → P (runWithHolder i name t)
  runOnGuide {name : String} {t : Resolver → Act Atlas Error Context} :
    (∀ e r, (Scene.onAtlas (t r)).Keeps (J e)) → P (runOnGuide name t)
  state : P (perform .state)
  openSession {name : String} (i : Nat) : among name → P (perform (.openSession name i))
  closeSession {name : String} : among name → P (perform (.closeSession name))
  makeGuide (name : String) (parents : List Kind) (maxDepth : Nat) :
    P (perform (.makeGuide name parents maxDepth))
  holding (holder : String) (u : UserId) : P (perform (.holding holder u))

namespace Steps

variable {J : Engine Obj → Scene → Prop} {among : String → Prop}
  {P : ∀ {α : Type}, Act (Deployment Obj) Failure α → Prop} (h : Steps J among P)

include h

theorem pure {α : Type} (a : α) : P (pure a) := h.ofExcept (.ok a)

theorem session {name : String} {c : SessionCommand Obj}
    (hc : Command.Observes J (.session name c)) (hname : among name) : P (c.perform name) :=
  c.perform_of hc h.bind h.find (h.runInSession hname)

theorem resolve {via : ResolvedBy} {c : ResolveCommand Obj} {saveAs : Option String}
    (hc : Command.Observes J (.resolve via c saveAs)) : P (c.perform via) := by
  have hfind (o : Owner) (e : Engine Obj) : (Scene.onAtlas (Resolver.lookUp o)).Keeps (J e) :=
    (hc.care e).find o
  cases c with
  | resolve subject =>
    unfold ResolveCommand.perform
    simp only [ResolveCommand.toAct, bind_assoc, pure_bind]
    refine h.bind (h.find subject) fun subject => ?_
    cases via with
    | process i => exact h.runInProcess fun e => (hc.guide e _ subject).mapError _
    | guide name => exact h.runOnGuide fun e r => hc.guide e r subject
  | lookUp o =>
    cases via with
    | process i => exact h.runInProcess fun e => (hfind o e).mapError _
    | guide name => exact h.runOnGuide fun e _ => hfind o e
  | root =>
    cases via with
    | process i => exact h.runInProcess fun e => (hc.guide e e.service.resolver .root).mapError _
    | guide name => exact h.runOnGuide fun e r => hc.guide e r .root

theorem process {i : Nat} {c : ProcessCommand Obj} (hc : Command.Observes J (.process i c)) :
    P (c.perform i) := by
  have hcare := hc.care
  have hasked (e : Engine Obj) := (hcare e).elements
  cases c with
  | invalidateShared u =>
    exact h.runInProcess fun e =>
      ((hc.unshare e (List.mem_singleton_self u)).mapError _).map _
  | info => exact h.runInProcess fun _ => Act.keeps_pure _
  | evaluate u ability subject =>
    exact h.bind (h.find _) fun _ => h.runInProcess fun _ => Act.keeps_pure _
  | hasPolicy k => exact h.runInProcess fun _ => Act.keeps_pure _
  | warm users =>
    exact h.runInProcess fun e =>
      (((hasked e).warmCache fun _ hu => hc.unshare e hu).mapError _).map _
  | checkBatch u abilities subject =>
    exact h.bind (h.find _) fun subject => h.runInProcess fun e =>
      (((hasked e).checkBatch u abilities subject).mapError _).map _
  | invalidateAll u =>
    refine h.runInProcess fun e => Act.Keeps.map (Act.Keeps.mapError ?_ _) _
    exact (hasked e).invalidateAllLevels (hc.unshare e (List.mem_singleton_self u))
  | invalidateBatch users =>
    exact h.runInProcess fun e =>
      (((hasked e).invalidateBatch fun _ hu => hc.unshare e hu).mapError _).map _
  | report =>
    exact h.runInProcess fun e => (((hcare e).metricsReport _ _).mapError _).map _
  | persist => exact h.runInProcess fun e => (((hcare e).persistMetrics _).mapError _).map _
  | flush period span =>
    exact h.runInProcess fun e => (((hcare e).flushFor _ period span).mapError _).map _
  | count c => exact h.runInProcess fun e s hs => (hcare e).counters _ hs

theorem cache {i : Nat} {holder : String} {c : CacheCommand}
    (hc : Command.Observes J (.cache i holder c)) : P (perform (.cache i holder c)) := by
  refine h.runWithHolder fun e => Act.Keeps.mapError ?_ _
  cases c with
  | lookUp u => exact ((hc.care e).lookUp u).bind fun _ => Act.keeps_pure _
  | put u rows ttl =>
    have hput : (Cache.put e.service.cache u (.ofRows rows) ttl).Keeps (J e) :=
      hc.put ⟨rfl, rfl, rfl⟩
    exact hput.bind fun _ => Act.keeps_pure _
  | invalidate u =>
    refine Act.Keeps.bind ?_ fun _ => Act.keeps_pure _
    exact (hc.care e).elements.invalidate (hc.unshare e (List.mem_singleton_self u))

theorem perform_of_observes {c : Command Obj} (hc : c.Observes J)
    (hnames : ∀ name, c.concerns name = true → among name) : P (perform c) := by
  cases c with
  | store s => exact h.onWorld fun e => hc.store e rfl
  | loadSnapshot u =>
    refine h.onWorld fun e s hs => ?_
    rw [Scene.runFrom_onWorld, Act.runFrom_map]
    exact (hc.care e).load u s hs
  | state => exact h.state
  | openSession name i => exact h.openSession i (hnames name (decide_eq_true rfl))
  | closeSession name => exact h.closeSession (hnames name (decide_eq_true rfl))
  | session name c => exact h.session hc (hnames name (decide_eq_true rfl))
  | makeGuide name parents maxDepth => exact h.makeGuide name parents maxDepth
  | resolve via c saveAs =>
    exact h.bind (h.resolve hc) fun c => h.bind (h.save saveAs c) fun _ => h.pure _
  | contains a b =>
    exact h.bind (h.savedContext a) fun _ => h.bind (h.savedContext b) fun _ => h.pure _
  | cache i holder c => exact h.cache hc
  | holding holder u => exact h.holding holder u
  | process i c => exact h.process hc

theorem perform {c : Command Obj} (hc : c.Upholds J)
    (hnames : ∀ name, c.concerns name = true → among name) : P (perform c) :=
  h.perform_of_observes hc.observes hnames

end Steps

end Deployment

end Clearance
