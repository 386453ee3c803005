import Clearance.Deployment.Perform
import Clearance.Proofs.Invariant

/-! Invariants along the runs of deployments. A command keeps an invariant for every process at
once; what a command does that is not left to the operations has to fit the invariant by itself. -/
namespace Clearance

/-- Some process or guide has this as the root that it has read. -/
inductive Deployment.HasRoot {Obj : Type} (d : Deployment Obj) : Option Context → Prop
  | process {i : Nat} {p : Process Obj} : d.process? i = some p → HasRoot d p.root
  | guide {name : String} {g : Guide} : d.guides.get? name = some g → HasRoot d g.root

theorem Deployment.process?_set {Obj : Type} {l : List (Option (Process Obj))} {i j : Nat}
    {p q r : Process Obj} (hp : l[i]?.join = some p) (hr : (l.set i (some q))[j]?.join = some r) :
    j = i ∧ r = q ∨ j ≠ i ∧ l[j]?.join = some r := by
  by_cases hj : j = i
  · subst hj
    have hlt : j < l.length := by
      by_cases hlt : j < l.length
      · exact hlt
      · rw [List.getElem?_eq_none (by omega)] at hp
        cases hp
    rw [List.getElem?_set_self hlt] at hr
    cases hr
    exact .inl ⟨rfl, rfl⟩
  · rw [List.getElem?_set_ne (Ne.symm hj)] at hr
    exact .inr ⟨hj, hr⟩

theorem Deployment.process?_append {Obj : Type} {l : List (Option (Process Obj))}
    {x : Option (Process Obj)} {i : Nat} {p : Process Obj} (hp : (l ++ [x])[i]?.join = some p) :
    l[i]?.join = some p ∨ x = some p := by
  rw [List.getElem?_append] at hp
  split at hp
  · exact .inl hp
  · cases hi : i - l.length with
    | zero =>
      rw [hi] at hp
      exact .inr hp
    | succ n =>
      rw [hi] at hp
      cases hp

namespace Invariant

variable {Obj α : Type} (I : Invariant Obj)

structure On (d : Deployment Obj) : Prop where
  engines : ∀ {i p}, d.process? i = some p → I.engine p.engine
  shared : ∀ {i p}, d.process? i = some p → I.shared p.shared
  sessions : ∀ {name s}, d.sessions.get? name = some s → I.held s.held
  holders : ∀ {name h}, d.holders.get? name = some h → I.held h
  guides : ∀ {name g}, d.guides.get? name = some g → I.resolver g.resolver
  stock : I.room d.world.contexts → I.stock d.world.stock
  roots : I.room d.world.contexts → ∀ {c}, d.HasRoot c → I.root c

/-- If there is room after a computation that started here, there was room here. -/
def Opens (d : Deployment Obj) : Prop :=
  ∀ k : Stock, I.room k.contexts → I.stock k → I.room d.world.contexts

structure Ready (d : Deployment Obj) : Prop where
  on : I.On d
  opens : I.Opens d

/-- From a deployment in which there was room if there is any afterwards, the computation leads to
one with the invariant. -/
def Carries (t : Act (Deployment Obj) Failure α) : Prop :=
  t.Meets I.Ready (fun _ => I.On) fun _ => I.On

variable {I} {d : Deployment Obj}

theorem On.onAtlas (h : I.On d) {c : Option Context} (hc : d.HasRoot c) :
    I.onAtlas ⟨d.world, c⟩ := fun room => ⟨h.stock room, h.roots room hc⟩

theorem On.onScene (h : I.On d) {i : Nat} {p : Process Obj} (hp : d.process? i = some p)
    {held : Held} (hheld : I.held held) : I.OnScene (p.scene d.world held) :=
  ⟨h.onAtlas (.process hp), h.shared hp, hheld⟩

theorem Ready.roots (h : I.Ready d) {k : Stock} (hk : I.room k.contexts → I.stock k)
    (room : I.room k.contexts) {c : Option Context} (hc : d.HasRoot c) : I.root c :=
  h.on.roots (h.opens k room (hk room)) hc

theorem On.of_same {d' : Deployment Obj} (h : I.On d) (hw : d'.world = d.world)
    (hp : d'.processes = d.processes) (hg : d'.guides = d.guides)
    (hs : ∀ {name s}, d'.sessions.get? name = some s → I.held s.held)
    (hh : ∀ {name m}, d'.holders.get? name = some m → I.held m) : I.On d' := by
  obtain ⟨w, ps, ss, hs', gs, saved⟩ := d'
  cases hw
  cases hp
  cases hg
  constructor
  · exact h.engines
  · exact h.shared
  · exact hs
  · exact hh
  · exact h.guides
  · exact h.stock
  · intro room c hc
    cases hc with
    | process hp => exact h.roots room (.process hp)
    | guide hg => exact h.roots room (.guide hg)

theorem On.insertSession (h : I.On d) (name : String) {s : Session} (hs : I.held s.held) :
    I.On { d with sessions := d.sessions.insert name s } := by
  refine h.of_same rfl rfl rfl (fun {n s'} hs' => ?_) h.holders
  rcases SortedMap.get?_insert_eq_some hs' with ⟨-, rfl⟩ | ⟨-, hs'⟩
  · exact hs
  · exact h.sessions hs'

theorem On.eraseSession (h : I.On d) (name : String) :
    I.On { d with sessions := d.sessions.erase name } :=
  h.of_same rfl rfl rfl (fun hs => h.sessions (SortedMap.get?_of_erase hs).2) h.holders

theorem On.insertHolder (h : I.On d) (name : String) {held : Held} (hheld : I.held held) :
    I.On { d with holders := d.holders.insert name held } := by
  refine h.of_same rfl rfl rfl h.sessions fun {n m} hm => ?_
  rcases SortedMap.get?_insert_eq_some hm with ⟨-, rfl⟩ | ⟨-, hm⟩
  · exact hheld
  · exact h.holders hm

theorem On.insertGuide (h : I.On d) (name : String) {g : Guide} (hr : I.resolver g.resolver)
    (hroot : I.root g.root) : I.On { d with guides := d.guides.insert name g } := by
  constructor
  · exact h.engines
  · exact h.shared
  · exact h.sessions
  · exact h.holders
  · intro n g' hg
    rcases SortedMap.get?_insert_eq_some hg with ⟨-, rfl⟩ | ⟨-, hg⟩
    · exact hr
    · exact h.guides hg
  · exact h.stock
  · intro room c hc
    cases hc with
    | process hp => exact h.roots room (.process hp)
    | guide hg =>
      rcases SortedMap.get?_insert_eq_some hg with ⟨-, rfl⟩ | ⟨-, hg⟩
      · exact hroot
      · exact h.roots room (.guide hg)

theorem On.save (h : I.On d) (name : Option String) (c : Context) : I.On (d.save name c) := by
  cases name with
  | none => exact h
  | some name => exact h.of_same rfl rfl rfl h.sessions h.holders

theorem Ready.after (h : I.Ready d) {i : Nat} {p : Process Obj} (hp : d.process? i = some p)
    {s : Scene} (hs : I.OnScene s) :
    I.On { d with world := s.world, processes := d.processes.set i (some (p.after s)) } := by
  have hstock : I.room s.world.contexts → I.stock s.world.stock := fun room => (hs.atlas room).1
  constructor
  · intro j q hq
    have he : I.engine p.engine := h.on.engines hp
    rcases Deployment.process?_set hp hq with ⟨-, rfl⟩ | ⟨-, hq⟩
    · exact he
    · exact h.on.engines hq
  · intro j q hq
    rcases Deployment.process?_set hp hq with ⟨-, rfl⟩ | ⟨-, hq⟩
    · exact hs.shared
    · exact h.on.shared hq
  · exact h.on.sessions
  · exact h.on.holders
  · exact h.on.guides
  · exact hstock
  · intro room c hc
    have hold : ∀ {c}, d.HasRoot c → I.root c := h.roots (k := s.world.stock) hstock room
    cases hc with
    | process hq =>
      rcases Deployment.process?_set hp hq with ⟨-, rfl⟩ | ⟨-, hq⟩
      · exact (hs.atlas room).2
      · exact hold (.process hq)
    | guide hg => exact hold (.guide hg)

theorem Ready.afterGuide (h : I.Ready d) {name : String} {g : Guide}
    (hg : d.guides.get? name = some g) {a : Atlas} (ha : I.onAtlas a) :
    I.On { d with world := a.world, guides := d.guides.insert name { g with root := a.root } } := by
  have hstock : I.room a.world.contexts → I.stock a.world.stock := fun room => (ha room).1
  constructor
  · exact h.on.engines
  · exact h.on.shared
  · exact h.on.sessions
  · exact h.on.holders
  · intro n g' hg'
    have hr : I.resolver g.resolver := h.on.guides hg
    rcases SortedMap.get?_insert_eq_some hg' with ⟨-, rfl⟩ | ⟨-, hg'⟩
    · exact hr
    · exact h.on.guides hg'
  · exact hstock
  · intro room c hc
    have hold : ∀ {c}, d.HasRoot c → I.root c := h.roots (k := a.world.stock) hstock room
    cases hc with
    | process hp => exact hold (.process hp)
    | guide hg' =>
      rcases SortedMap.get?_insert_eq_some hg' with ⟨-, rfl⟩ | ⟨-, hg'⟩
      · exact (ha room).2
      · exact hold (.guide hg')

section SetUp

theorem stock_foldl_log (events : List Event) (w : World) :
    (events.foldl (fun w e => w.log e) w).stock = w.stock := by
  induction events generalizing w with
  | nil => rfl
  | cons e events ih => exact ih (w.log e)

theorem On.addProcess (h : I.On d) {s : EngineSpec Obj} (hroot : I.root none)
    (he : ∀ {e events}, s.build = .ok (e, events) → I.engine e) : I.On (d.addProcess s).1 := by
  unfold Deployment.addProcess
  split
  · next e events hbuild =>
    have hstock := stock_foldl_log events d.world
    have hcontexts : (events.foldl (fun w e => w.log e) d.world).contexts = d.world.contexts :=
      congrArg Stock.contexts hstock
    constructor
    · intro i p hp
      rcases Deployment.process?_append hp with hp | hp
      · exact h.engines hp
      · cases hp
        exact he hbuild
    · intro i p hp
      rcases Deployment.process?_append hp with hp | hp
      · exact h.shared hp
      · cases hp
        exact shared_empty
    · exact h.sessions
    · exact h.holders
    · exact h.guides
    · intro room
      show I.stock _
      rw [hstock]
      exact h.stock (hcontexts ▸ room)
    · intro room c hc
      cases hc with
      | process hp =>
        rcases Deployment.process?_append hp with hp | hp
        · exact h.roots (hcontexts ▸ room) (.process hp)
        · cases hp
          exact hroot
      | guide hg => exact h.roots (hcontexts ▸ room) (.guide hg)
  · have hold : ∀ {i p}, (d.processes ++ [none])[i]?.join = some p → d.process? i = some p :=
      fun hp => (Deployment.process?_append hp).resolve_right nofun
    constructor
    · exact fun hp => h.engines (hold hp)
    · exact fun hp => h.shared (hold hp)
    · exact h.sessions
    · exact h.holders
    · exact h.guides
    · exact h.stock
    · intro room c hc
      cases hc with
      | process hp => exact h.roots room (.process (hold hp))
      | guide hg => exact h.roots room (.guide hg)

theorem On.addProcesses {specs : List (EngineSpec Obj)} (h : I.On d) (hroot : I.root none)
    (he : ∀ s ∈ specs, ∀ {e events}, s.build = .ok (e, events) → I.engine e) :
    I.On (d.addProcesses specs).1 := by
  induction specs generalizing d with
  | nil => exact h
  | cons s specs ih =>
    have hfirst : I.On (d.addProcess s).1 := h.addProcess hroot (he s (List.mem_cons_self ..))
    exact ih hfirst fun s hs => he s (List.mem_cons_of_mem _ hs)

/-- A deployment that is set up satisfies an invariant if its engines and its stores do. -/
theorem on_setUp {contexts : ContextStore} {specs : List (EngineSpec Obj)} (hroot : I.root none)
    (hstock : I.stock (World.ofContexts contexts).stock)
    (he : ∀ s ∈ specs, ∀ {e events}, s.build = .ok (e, events) → I.engine e) :
    I.On (Deployment.setUp contexts specs).1 := by
  refine On.addProcesses ?_ hroot he
  constructor
  · intro i p hp
    cases hp
  · intro i p hp
    cases hp
  · intro name s hs
    cases hs
  · intro name h hh
    cases hh
  · intro name g hg
    cases hg
  · exact fun _ => hstock
  · intro _ c hc
    cases hc with
    | process hp => cases hp
    | guide hg => cases hg

end SetUp

section Carries

theorem carries_pure (a : α) : I.Carries (pure a) := fun _ h => h.on

theorem carries_throw (e : Failure) : I.Carries (throw e : Act (Deployment Obj) Failure α) :=
  fun _ h => h.on

theorem carries_get_bind {f : Deployment Obj → Act (Deployment Obj) Failure α}
    (h : ∀ d, I.On d → I.Carries (f d)) : I.Carries (get >>= f) :=
  Act.meets_get_bind fun d s ⟨hs, he⟩ => h d (he ▸ hs.on) s hs

theorem Carries.bind_keeps {β : Type} {t : Act (Deployment Obj) Failure β}
    {f : β → Act (Deployment Obj) Failure α} (h : I.Carries t) (hf : ∀ b, (f b).Keeps I.On) :
    I.Carries (t >>= f) := Act.Meets.bind h fun b => (hf b).meets

theorem carries_modify {f : Deployment Obj → Deployment Obj} (h : ∀ d, I.On d → I.On (f d)) :
    I.Carries (modify f : Act (Deployment Obj) Failure PUnit) := fun _ hd => h _ hd.on

theorem meets_find (r : SubjectRef Obj) :
    r.find.Meets I.Ready (fun _ => I.Ready) fun _ => I.On :=
  Act.meets_get_bind fun _ =>
    Act.meets_ofExcept (fun _ _ _ h => h.1) fun _ _ _ h => h.1.on

theorem carries_find {r : SubjectRef Obj} {f : Subject Obj → Act (Deployment Obj) Failure α}
    (h : ∀ subject, I.Carries (f subject)) : I.Carries (r.find >>= f) :=
  Act.Meets.bind (meets_find r) h

theorem meets_savedContext (name : String) :
    (Deployment.savedContext name : Act (Deployment Obj) Failure Context).Meets I.Ready
      (fun _ => I.Ready) fun _ => I.On := by
  apply Act.meets_get_bind
  intro d
  cases d.saved.get? name with
  | none => exact Act.meets_throw fun _ h => h.1.on
  | some c => exact Act.meets_pure fun _ h => h.1

theorem carries_onWorld {t : Act World Failure α}
    (h : t.Keeps fun w => I.room w.contexts → I.stock w.stock) :
    I.Carries (Deployment.onWorld t) := by
  apply Act.meets_of_left
  intro d hd
  have hstock := h d.world hd.on.stock
  constructor
  · exact hd.on.engines
  · exact hd.on.shared
  · exact hd.on.sessions
  · exact hd.on.holders
  · exact hd.on.guides
  · exact hstock
  · intro room c hc
    apply hd.roots (k := (t.runFrom d.world).2.stock) hstock room
    cases hc with
    | process hp => exact .process hp
    | guide hg => exact .guide hg

theorem carries_runIn {i : Nat} {held : Held} {keep : Held → Deployment Obj → Deployment Obj}
    {t : Engine Obj → Act Scene Failure α} (ht : ∀ e, I.engine e → (t e).Keeps I.OnScene)
    (hheld : I.held held) (hkeep : ∀ held d, I.held held → I.On d → I.On (keep held d)) :
    I.Carries (Deployment.runIn i held keep t) := by
  apply Act.meets_of_left
  intro d hd
  simp only [Deployment.runIn, Act.runFrom_ofFun]
  cases hp : d.process? i with
  | none => exact hd.on
  | some p =>
    have hs := ht p.engine (hd.on.engines hp) _ (hd.on.onScene hp hheld)
    exact hkeep _ _ hs.held (hd.after hp hs)

theorem carries_runInProcess {i : Nat} {t : Engine Obj → Act Scene Failure α}
    (ht : ∀ e, I.engine e → (t e).Keeps I.OnScene) :
    I.Carries (Deployment.runInProcess i t) :=
  carries_runIn ht held_empty fun _ _ _ h => h

theorem carries_runInSession {name : String} {t : Engine Obj → Act Scene Failure α}
    (ht : ∀ e, I.engine e → (t e).Keeps I.OnScene) :
    I.Carries (Deployment.runInSession name t) := by
  apply carries_get_bind
  intro d hd
  cases hs : d.sessions.get? name with
  | none => exact carries_throw _
  | some s => exact carries_runIn ht (hd.sessions hs) fun _ _ hheld h => h.insertSession name hheld

theorem carries_runWithHolder {i : Nat} {name : String} {t : Engine Obj → Act Scene Failure α}
    (ht : ∀ e, I.engine e → (t e).Keeps I.OnScene) :
    I.Carries (Deployment.runWithHolder i name t) := by
  apply carries_get_bind
  intro d hd
  have hheld : I.held ((d.holders.get? name).getD .empty) := by
    cases hh : d.holders.get? name with
    | none => exact held_empty
    | some m => exact hd.holders hh
  exact carries_runIn ht hheld fun _ _ hheld h => h.insertHolder name hheld

theorem carries_runOnGuide {name : String} {t : Resolver → Act Atlas Error α}
    (ht : ∀ r, I.resolver r → (t r).Keeps I.onAtlas) :
    I.Carries (Deployment.runOnGuide name t : Act (Deployment Obj) Failure α) := by
  apply Act.meets_of_left
  intro d hd
  simp only [Deployment.runOnGuide, Act.runFrom_ofFun]
  cases hg : d.guides.get? name with
  | none => exact hd.on
  | some g => exact hd.afterGuide hg (ht g.resolver (hd.on.guides hg) _ (hd.on.onAtlas (.guide hg)))

end Carries

section Perform

variable (I)

def FitsStore (c : StoreCommand) : Prop :=
  c.perform.Keeps fun w => I.room w.contexts → I.stock w.stock

/-- What a command does to the parts of a deployment other than by the operations of a service
fits the invariant. -/
def Fits : Command Obj → Prop
  | .store c => I.FitsStore c
  | .session _ (.actAsSuperAdmin u) =>
    ∀ e, I.engine e → e.environment = some .production ∨ I.good u .ofSuperAdmin
  | .makeGuide _ parents maxDepth => I.resolver ⟨.ofList parents, maxDepth⟩ ∧ I.root none
  | .cache _ _ (.put u rows _) => I.good u (.ofRows rows)
  | _ => True

variable {I} [DomainObject Obj] (hI : I.Sound)

include hI

/-- In production nobody is made a super-admin, and elsewhere it takes a good snapshot. -/
theorem Sound.keeps_actAsSuperAdminIn {e : Engine Obj} {environment : Environment} {u : UserId}
    (h : environment = .production ∨ I.good u .ofSuperAdmin) :
    (e.actAsSuperAdmin environment u).Keeps I.OnScene := by
  rcases h with rfl | h
  · exact Act.keeps_throw _
  · unfold Engine.actAsSuperAdmin
    split
    · exact Act.keeps_throw _
    · exact (keeps_log _).bind fun _ => (hI.keeps_actAsSuperAdmin _ h).mapError _

theorem Sound.carries_session (name : String) (c : SessionCommand Obj)
    (h : I.Fits (.session name c)) : I.Carries (c.perform name) := by
  cases c with
  | check u ability subject =>
    exact carries_find fun subject => carries_runInSession fun e he =>
      (((hI.upkeep (hI.resolver he)).parts.check u ability subject).mapError _).map _
  | authorize u ability subject =>
    exact carries_find fun subject => carries_runInSession fun e he =>
      (((hI.upkeep (hI.resolver he)).parts.authorize u ability subject).mapError _).map _
  | hasRole u role subject =>
    exact carries_find fun subject => carries_runInSession fun e he =>
      (((hI.upkeep (hI.resolver he)).parts.hasRole u role subject).mapError _).map _
  | isSuperAdmin u =>
    exact carries_runInSession fun e he =>
      (((hI.upkeep (hI.resolver he)).parts.isSuperAdmin u).mapError _).map _
  | snapshot u =>
    exact carries_runInSession fun e _ => ((hI.yields_snapshot e.service u).keeps.mapError _).map _
  | invalidate u =>
    exact carries_runInSession fun e he =>
      (((hI.upkeep (hI.resolver he)).parts.invalidate u).mapError _).map _
  | actAsSuperAdmin u =>
    refine carries_runInSession fun e he => Act.Keeps.map ?_ _
    cases henv : e.environment with
    | some environment =>
      refine (hI.keeps_actAsSuperAdminIn ((h e he).imp_left fun hp => ?_)).mapError _
      exact Option.some.inj (henv.symm.trans hp)
    | none =>
      rcases h e he with hp | hgood
      · cases henv.symm.trans hp
      · exact (hI.keeps_actAsSuperAdmin e.service hgood).mapError _

theorem Sound.carries_resolve (via : ResolvedBy) (c : ResolveCommand Obj) :
    I.Carries (c.perform via) := by
  have hact : c.toAct.Meets I.Ready
      (fun act d => I.Ready d ∧ ∀ r, I.resolver r → (act r).Keeps I.onAtlas) fun _ => I.On := by
    cases c with
    | resolve subject =>
      refine (meets_find subject).bind fun subject => Act.meets_pure fun d hd => ?_
      exact ⟨hd, fun _ hr => hI.resolve subject hr⟩
    | lookUp o => exact Act.meets_pure fun d hd => ⟨hd, fun _ _ => hI.lookUp o⟩
    | root => exact Act.meets_pure fun d hd => ⟨hd, fun _ _ => hI.readRoot⟩
  refine hact.bind fun act d ⟨hd, hr⟩ => ?_
  cases via with
  | process i =>
    exact carries_runInProcess
      (fun e he => (keeps_onAtlas (hr _ (hI.resolver he))).mapError _) d hd
  | guide name => exact carries_runOnGuide hr d hd

theorem Sound.carries_process (i : Nat) (c : ProcessCommand Obj) : I.Carries (c.perform i) := by
  cases c with
  | invalidateShared u =>
    exact carries_runInProcess fun _ _ => ((hI.keeps_invalidateShared u).mapError _).map _
  | info => exact carries_runInProcess fun _ _ => Act.keeps_pure _
  | evaluate u ability subject =>
    exact carries_find fun subject => carries_runInProcess fun _ _ => Act.keeps_pure _
  | hasPolicy k => exact carries_runInProcess fun _ _ => Act.keeps_pure _
  | warm users =>
    exact carries_runInProcess fun e he =>
      (((hI.upkeep (hI.resolver he)).parts.warmCache users).mapError _).map _
  | checkBatch u abilities subject =>
    exact carries_find fun subject => carries_runInProcess fun e he =>
      (((hI.upkeep (hI.resolver he)).parts.checkBatch u abilities subject).mapError _).map _
  | invalidateAll u =>
    exact carries_runInProcess fun e he =>
      (((hI.upkeep (hI.resolver he)).parts.invalidateAllLevels u).mapError _).map _
  | invalidateBatch users =>
    exact carries_runInProcess fun e he =>
      (((hI.upkeep (hI.resolver he)).parts.invalidateBatch users).mapError _).map _
  | report =>
    exact carries_runInProcess fun e he =>
      (((hI.upkeep (hI.resolver he)).metricsReport _ _).mapError _).map _
  | persist =>
    exact carries_runInProcess fun e he =>
      (((hI.upkeep (hI.resolver he)).persistMetrics _).mapError _).map _
  | flush period span =>
    exact carries_runInProcess fun e he =>
      (((hI.upkeep (hI.resolver he)).flushFor _ period span).mapError _).map _
  | count c =>
    apply carries_runInProcess
    intro _ _ s hs
    exact ⟨hs.atlas, hs.shared, hs.held⟩

theorem Sound.keeps_cache {e : Engine Obj} (he : I.engine e) (c : CacheCommand)
    (h : ∀ u rows ttl, c = .put u rows ttl → I.good u (.ofRows rows)) :
    (c.perform e).Keeps I.OnScene := by
  cases c with
  | lookUp u => exact (hI.yields_lookUp _ u).keeps.bind fun _ => Act.keeps_pure _
  | put u rows ttl =>
    exact (hI.keeps_put _ (h u rows ttl rfl) ttl).bind fun _ => Act.keeps_pure _
  | invalidate u =>
    exact ((hI.upkeep (hI.resolver he)).parts.invalidate u).bind fun _ => Act.keeps_pure _

theorem Sound.carries_perform (c : Command Obj) (h : I.Fits c) :
    I.Carries (Deployment.perform c) := by
  cases c with
  | store c => exact carries_onWorld (Act.Keeps.mapError h _)
  | loadSnapshot u =>
    refine carries_onWorld (Act.Keeps.map (Act.Keeps.mapError ?_ _) _)
    exact (World.meets_loadSnapshot (I := fun k => I.room k.contexts → I.stock k) u).keeps
      (fun _ _ h => h.1) fun _ _ h => h
  | state => exact carries_get_bind fun _ _ => carries_pure _
  | openSession name i =>
    apply carries_get_bind
    intro d _
    cases d.process? i with
    | none => exact carries_throw _
    | some p =>
      refine (carries_modify fun d hd => ?_).bind_keeps fun _ => Act.keeps_pure _
      exact hd.insertSession name held_empty
  | closeSession name =>
    apply carries_get_bind
    intro d hd
    have hset : I.Carries (set { d with sessions := d.sessions.erase name }) :=
      fun _ _ => hd.eraseSession name
    exact hset.bind_keeps fun _ => Act.keeps_pure _
  | session name c => exact hI.carries_session name c h
  | makeGuide name parents maxDepth =>
    refine (carries_modify fun d hd => ?_).bind_keeps fun _ => Act.keeps_pure _
    exact hd.insertGuide name h.1 h.2
  | resolve via c saveAs =>
    refine (hI.carries_resolve via c).bind_keeps fun c => ?_
    exact (Act.keeps_modify fun d hd => hd.save saveAs c).bind fun _ => Act.keeps_pure _
  | contains a b =>
    refine Act.Meets.bind (R := fun _ => I.Ready) (meets_savedContext a) fun c => ?_
    refine Act.Meets.bind (R := fun _ => I.Ready) (meets_savedContext b) fun c' => ?_
    exact carries_pure _
  | cache i holder c =>
    refine carries_runWithHolder fun e he => (hI.keeps_cache he c fun u rows ttl hc => ?_).mapError _
    subst hc
    exact h
  | holding holder u => exact carries_get_bind fun _ _ => carries_pure _
  | process i c => exact hI.carries_process i c

/-- A step keeps the invariant of a deployment in which there was room if there is any after it. -/
theorem Sound.on_step (c : Command Obj) (h : I.Fits c) {d : Deployment Obj} (hd : I.Ready d) :
    I.On (d.step c).2 := (hI.carries_perform c h).left hd

end Perform

end Invariant

end Clearance
