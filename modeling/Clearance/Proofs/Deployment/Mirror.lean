import Clearance.Proofs.Cache.Mirror
import Clearance.Proofs.Deployment.Discipline
import Clearance.Proofs.Deployment.Everywhere

/-! One process that has a key-value store to itself. In every state that it reaches, what it shares
of a user is what is stored of the user, whichever requests are refused on the way. -/
namespace Clearance

variable {Obj : Type}

namespace StoreCommand

def writesKeys : StoreCommand → Bool
  | setKey .. | deleteKey .. => true
  | _ => false

variable {kv : KeyValueStore}

theorem silent_onAssignments (f : AssignmentStore → Except StorageError AssignmentStore) :
    (onAssignments f).Keeps (Silent kv) := by
  intro w hw
  unfold onAssignments
  rw [Act.runFrom_ofFun]
  cases f w.assignments <;> exact hw

theorem silent_perform {c : StoreCommand} (hc : c.writesKeys = false) :
    c.perform.Keeps (Silent kv) := by
  cases c with
  | refuse | hide | impose | insertRecord | countRecords | usersWithRole | hasKey | keyTtl =>
    exact fun _ h => h
  | getRecord id => exact (World.silent_getContext id).bind fun _ => Act.keeps_pure _
  | findRecord o => exact (World.silent_findContext o).bind fun _ => Act.keeps_pure _
  | createRecord d => exact (World.silent_createContext d).bind fun _ => Act.keeps_pure _
  | upsertRole | grant | ungrant | assign | unassign => exact silent_onAssignments _
  | loadRows u => exact (World.silent_loadAssignments u).bind fun _ => Act.keeps_pure _
  | getKey key => exact (World.silent_getKey key).bind fun _ => Act.keeps_pure _
  | setKey | deleteKey => cases hc

end StoreCommand

namespace Command

/-- Nothing is stored under a key but by a service, and a snapshot that is put into the cache is to
stay there for some time. -/
def ThroughService : Command Obj → Prop
  | .store c => c.writesKeys = false
  | .cache _ _ (.put _ _ ttl) => 0 < ttl
  | _ => True

variable [DomainObject Obj]

theorem upholds_mirrors {c : Command Obj} (hc : c.ThroughService) :
    c.Upholds fun e => Scene.Mirrors e.service.cache where
  upkeep e := e.service.mirrors_upkeep
  guide _ r subject := Scene.mirrors_onAtlas fun _ => Resolver.silent_course.resolve r subject
  put {e u p ttl} hputs s hs := by
    have httl : 0 < ttl := by
      cases c with
      | session name c =>
        cases c with
        | actAsSuperAdmin v => exact hputs.2.2 ▸ Mirror.retains hs
        | _ => cases hputs
      | cache i holder c =>
        cases c with
        | put v rows t => exact hputs.2.2 ▸ hc
        | _ => cases hputs
      | _ => cases hputs
    exact Cache.mirrors_put httl s hs
  store _ hc' := by
    subst hc'
    exact Scene.mirrors_onWorld fun _ => StoreCommand.silent_perform hc

end Command

def EngineSpec.Retains (s : EngineSpec Obj) : Prop :=
  ∀ {e events}, s.build = .ok (e, events) → 0 < e.service.cache.persistentTtl

namespace Deployment

theorem silent_foldl_log {kv : KeyValueStore} {events : List Event} {w : World} (h : Silent kv w)
    (hevents : ∀ e ∈ events, e.isDrop = false) :
    Silent kv (events.foldl (fun w e => w.log e) w) := by
  induction events generalizing w with
  | nil => exact h
  | cons e events ih =>
    obtain ⟨he, hevents⟩ := List.forall_mem_cons.1 hevents
    exact ih (h.log he) hevents

theorem mirrors_lasting : Lasting fun e : Engine Obj => Scene.Mirrors e.service.cache :=
  ⟨fun _ h => h, fun _ h => h⟩

theorem everywhere_mirrors_setUp {contexts : ContextStore} {spec : EngineSpec Obj}
    (h : spec.Retains) :
    Everywhere (fun e => Scene.Mirrors e.service.cache) (setUp contexts [spec]).1 := by
  refine ⟨fun {i p} hp => ?_, .inl (processCount_setUp contexts spec)⟩
  simp only [setUp, addProcesses, addProcess] at hp ⊢
  cases hbuild : spec.build with
  | error e =>
    simp only [hbuild] at hp
    rcases process?_append hp with hp | hp <;> cases hp
  | ok x =>
    obtain ⟨e, events⟩ := x
    simp only [hbuild] at hp ⊢
    have hsilent : Silent .empty (events.foldl (fun w e => w.log e) (.ofContexts contexts)) := by
      refine silent_foldl_log ⟨rfl, fun e hmem => absurd hmem (Array.not_mem_empty e)⟩
        fun event hmem => ?_
      rcases (EngineSpec.of_build hbuild).2.2 event hmem with rfl | ⟨settings, rfl⟩ <;> rfl
    rcases process?_append hp with hp | hp
    · cases hp
    · cases hp
      exact {
        retains := h hbuild
        stored := nofun
        decodes := hsilent.1 ▸ KeyValueStore.vouched_empty
        unused := fun _ => rfl
        undropped := hsilent.2 }

variable [DomainObject Obj]

/-- The deployments that are reached when nothing but the services writes to the key-value store and
nothing in it expires. Shared entries vanish and requests are refused at will. -/
inductive Confined (start : Deployment Obj) : Deployment Obj → Prop
  | start : Confined start start
  | command {d : Deployment Obj} {c : Command Obj} : Confined start d →
    c.ThroughService → Confined start (d.step c).2
  | evict {d : Deployment Obj} (i : Nat) (key : String) : Confined start d →
    Confined start (d.evict i key)
  | disrupt {d : Deployment Obj} (x : Disruption) : Confined start d → Confined start (d.disrupt x)

theorem Confined.everywhere {start d : Deployment Obj} (h : start.Confined d)
    (hstart : Everywhere (fun e => Scene.Mirrors e.service.cache) start) :
    Everywhere (fun e => Scene.Mirrors e.service.cache) d := by
  induction h with
  | start => exact hstart
  | command _ hc ih => exact ih.step mirrors_lasting (Command.upholds_mirrors hc)
  | evict i key _ ih => exact ih.evict mirrors_lasting (fun key hs => Mirror.unshare hs key) i key
  | disrupt x _ ih => exact ih.reworld fun _ hs => hs

/-- What the process shares of a user is what is stored of the user. A snapshot that cannot be put
into the cache leaves every tier and the counters as they were, and nothing that is stored of a user
is ever dropped because it cannot be decoded. -/
theorem shared_mirrors_stored {contexts : ContextStore} {spec : EngineSpec Obj}
    (hspec : spec.Retains) {d : Deployment Obj} (hd : (setUp contexts [spec]).1.Confined d)
    {p : Process Obj} (hp : d.process? 0 = some p) :
    (∀ {u q}, p.shared.get? (sharedKey u) = some q →
      d.world.keyValues.get (persistentKey u) = some q.toBytes) ∧
    (∀ {u q ttl s s' e}, (Cache.put p.engine.service.cache u q ttl).runFrom s = (.error e, s') →
      s' = { s with world := s.world.noting .setKey }) ∧
    (∀ {u bytes}, d.world.keyValues.get (persistentKey u) = some bytes →
      (Snapshot.ofBytes? bytes).isSome = true) ∧
    ∀ u, .undecodableDropped u ∉ d.world.events := by
  have hmirror := (hd.everywhere (everywhere_mirrors_setUp hspec)).each hp
  refine ⟨Mirror.stored hmirror, fun {u q ttl s s' e} hrun => ?_, fun {u bytes} hb => ?_,
    fun u hmem => ?_⟩
  · rcases Cache.put_cases p.engine.service.cache u q ttl s with ⟨e', hput⟩ | hput
    · exact (Prod.mk.inj (hrun.symm.trans hput)).2
    · cases hrun.symm.trans hput
  · obtain ⟨q, -, rfl⟩ := Mirror.decodes hmirror u bytes hb
    rw [Snapshot.ofBytes?_toBytes]
    rfl
  · cases Mirror.undropped hmirror _ hmem

def desk : EngineSpec (Bare fun _ => none) := ⟨[], [], .parts {} 25 {}⟩

theorem retains_desk : desk.Retains := fun h => by
  cases h
  decide

/-- A process has cached what the user 5 may do and has seeded the user 7. The next value that is to
be stored will be refused. -/
def seeded : Deployment (Bare fun _ => none) :=
  (steps [.store (.upsertRole 1 "editor"), .store (.grant 1 "edit"), .store (.assign 5 1 rootId),
    .openSession "a" 0, .session "a" (.snapshot 5), .session "a" (.actAsSuperAdmin 7),
    .store (.refuse .setKey 1 (.connection "down"))] (setUp .new [desk]).1).2

theorem confined_seeded : (setUp .new [desk]).1.Confined seeded := by
  have hassigned : (setUp .new [desk]).1.Confined _ :=
    ((Confined.start.command (c := .store (.upsertRole 1 "editor")) rfl).command
      (c := .store (.grant 1 "edit")) rfl).command (c := .store (.assign 5 1 rootId)) rfl
  have hserved : (setUp .new [desk]).1.Confined _ :=
    ((hassigned.command (c := .openSession "a" 0) trivial).command
      (c := .session "a" (.snapshot 5)) trivial).command
      (c := .session "a" (.actAsSuperAdmin 7)) trivial
  exact hserved.command (c := .store (.refuse .setKey 1 (.connection "down"))) rfl

/-- Both users are shared and stored, and the user 6 cannot be put into the cache. -/
theorem shared_mirrors_stored_seeded : ∃ p, seeded.process? 0 = some p ∧
    (∀ u ∈ [5, 7], ∃ q, p.shared.get? (sharedKey u) = some q ∧
      seeded.world.keyValues.get (persistentKey u) = some q.toBytes) ∧
    ∃ e, (Cache.put p.engine.service.cache 6 .ofSuperAdmin 60).runFrom
      (p.scene seeded.world .empty) =
        (.error e, p.scene (seeded.world.noting .setKey) .empty) := by
  have hrun : (seeded.process? 0).map (fun p =>
      ([5, 7].all fun u => (p.shared.get? (sharedKey u)).isSome,
        ((Cache.put p.engine.service.cache 6 .ofSuperAdmin 60).runFrom
          (p.scene seeded.world .empty)).1.isOk)) = some (true, false) := by
    decide +kernel
  obtain ⟨p, hp, hrun⟩ := Option.map_eq_some_iff.1 hrun
  obtain ⟨hshared, hput⟩ := Prod.mk.inj hrun
  obtain ⟨hstored, hrefused, -⟩ := shared_mirrors_stored retains_desk confined_seeded hp
  refine ⟨p, hp, fun u hu => ?_, ?_⟩
  · obtain ⟨q, hq⟩ := Option.isSome_iff_exists.1 (List.all_eq_true.1 hshared u hu)
    exact ⟨q, hq, hstored hq⟩
  · generalize hx : (Cache.put p.engine.service.cache 6 .ofSuperAdmin 60).runFrom
      (p.scene seeded.world .empty) = x at hput
    obtain ⟨r, s⟩ := x
    cases r with
    | ok _ => cases hput
    | error e => exact ⟨e, Prod.ext rfl (hrefused hx)⟩

end Deployment

end Clearance
