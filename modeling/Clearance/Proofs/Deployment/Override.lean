import Clearance.Proofs.Deployment.Caching
import Clearance.Proofs.Deployment.Renewed

/-! Users who have been made super-admins by a session. They are taken for super-admins by this
session and by all that are opened afterwards, until they are dropped, and for what the assignments
make them from then on. -/
namespace Clearance

open Scene (Mirrors Pins Spares)

variable {Obj : Type}

/-- An engine that is not in production has made the user a super-admin in every tier, and has done
nothing else between these scenes. -/
structure Engine.Seeds (e : Engine Obj) (u : UserId) (s t : Scene) : Prop where
  environment : e.environment ≠ some .production
  pins : PinsIn True u e t
  spares : Spares u s t
  contexts : t.world.contexts = s.world.contexts

theorem Service.meets_actAsSuperAdmin (v : Service Obj) (u : UserId) (s : Scene) :
    (v.actAsSuperAdmin u).Meets
      (fun t => t.Mirrors v.cache ∧ Spares u s t ∧ t.world.contexts = s.world.contexts)
      (fun _ t => t.Pins v.cache True u .ofSuperAdmin ∧ Spares u s t ∧
        t.world.contexts = s.world.contexts) fun _ _ => True := by
  rintro t ⟨hmirror, hspares, hcontexts⟩
  have hleft := (Spares.steps v.cache u s).put .ofSuperAdmin v.cache.persistentTtl t hspares
  have hretains := Mirror.retains hmirror
  rw [Service.actAsSuperAdmin]
  rcases Cache.put_cases v.cache u .ofSuperAdmin v.cache.persistentTtl t with ⟨e, hrun⟩ | hrun
  · rw [hrun]
    trivial
  · rw [hrun] at hleft ⊢
    refine ⟨Cache.pins_putInto hretains hretains fun hkeeps p hp => ?_, hleft, hcontexts⟩
    cases (Mirror.unused hmirror hkeeps).symm.trans hp

theorem Engine.meets_actAsSuperAdmin [DomainObject Obj] (e : Engine Obj) {environment : Environment}
    (he : e.environment = some environment) (u : UserId) (s : Scene) :
    (e.actAsSuperAdmin environment u).Meets (fun t => t.Mirrors e.service.cache ∧ t = s)
      (fun _ => e.Seeds u s) fun _ _ => True := by
  unfold Engine.actAsSuperAdmin
  split
  · exact Act.meets_throw fun _ _ => trivial
  · next hproduction =>
    refine Act.Meets.bind (R := fun _ t => t.Mirrors e.service.cache ∧ Spares u s t ∧
      t.world.contexts = s.world.contexts) (Act.meets_modify ?_) fun _ => ?_
    · rintro t ⟨hmirror, rfl⟩
      exact ⟨Mirror.log hmirror rfl, { Spares.refl u t with }, rfl⟩
    · refine Act.Meets.mapError ((e.service.meets_actAsSuperAdmin u s).mono (fun _ h => h)
        (fun _ t h => ⟨?_, h.1, h.2.1, h.2.2⟩) fun _ _ _ => trivial)
      rw [he]
      rintro ⟨⟩
      exact hproduction rfl

namespace Deployment

theorem exists_process_of_engine {d d' : Deployment Obj} {i : Nat} {p : Process Obj}
    (h : (d'.process? i).map (·.engine) = (d.process? i).map (·.engine))
    (hp : d.process? i = some p) : ∃ p', d'.process? i = some p' := by
  rw [hp] at h
  obtain ⟨p', hp', -⟩ := Option.map_eq_some_iff.1 h
  exact ⟨p', hp'⟩

variable [DomainObject Obj] {d : Deployment Obj} {u : UserId} {name : String}

theorem Confined.processCount {start : Deployment Obj} (h : start.Confined d) :
    d.processCount = start.processCount := by
  induction h with
  | start => rfl
  | command _ _ ih => exact (processCount_step ..).trans ih
  | evict i key _ ih => exact (processCount_evict ..).trans ih
  | disrupt x _ ih => exact ih

/-- A session that makes the user a super-admin leaves the scene that its engine leaves. -/
theorem exists_seeds_of_actAsSuperAdmin (hmirrors : d.Everywhere fun e => Mirrors e.service.cache)
    {answer : Answer} (h : (d.step (.session name (.actAsSuperAdmin u))).1.1 = .ok answer) :
    ∃ x p t, d.sessions.get? name = some x ∧ d.process? x.process = some p ∧
      p.engine.Seeds u (p.scene d.world x.held) t ∧
      (d.step (.session name (.actAsSuperAdmin u))).2 = d.leave name x p t := by
  obtain ⟨x, p, t, hx, hp, hasked, hleft⟩ := leave_of_runInSession h
  refine ⟨x, p, t, hx, hp, ?_, hleft⟩
  rw [Act.runFrom_map] at hasked
  obtain ⟨hok, rfl⟩ := Prod.mk.inj hasked
  obtain ⟨b, hok, -⟩ := Except.map_eq_ok.1 hok
  have hmirror : Mirrors p.engine.service.cache (p.scene d.world x.held) := hmirrors.each hp
  cases he : p.engine.environment with
  | some environment =>
    simp only [he, Act.runFrom_mapError] at hok ⊢
    exact (p.engine.meets_actAsSuperAdmin he u _).ok ⟨hmirror, rfl⟩
      (Prod.ext (Except.mapError_eq_ok.1 hok) rfl)
  | none =>
    simp only [he, Act.runFrom_mapError] at hok ⊢
    obtain ⟨hpins, hspares, hcontexts⟩ := (p.engine.service.meets_actAsSuperAdmin u _).ok
      ⟨hmirror, .refl u _, rfl⟩ (Prod.ext (Except.mapError_eq_ok.1 hok) rfl)
    exact ⟨by rw [he]; nofun, hpins, hspares, hcontexts⟩

/-- In the only process that there is, the user is pinned then, and for this session, too. -/
theorem pins_of_actAsSuperAdmin (hmirrors : d.Everywhere fun e => Mirrors e.service.cache)
    (hone : d.processCount = 1) {answer : Answer}
    (h : (d.step (.session name (.actAsSuperAdmin u))).1.1 = .ok answer) :
    (d.step (.session name (.actAsSuperAdmin u))).2.Everywhere (PinsIn False u) ∧
      (d.step (.session name (.actAsSuperAdmin u))).2.Sees (PinsIn True u) name := by
  obtain ⟨x, p, t, -, hp, hseeds, hleft⟩ := exists_seeds_of_actAsSuperAdmin hmirrors h
  have hone' := (processCount_step d (.session name (.actAsSuperAdmin u))).trans hone
  rw [hleft] at hone' ⊢
  refine ⟨⟨fun {i q} hq => ?_, .inl hone'⟩, sees_leave hp hseeds.pins⟩
  rw [process?_leave hp] at hq
  split at hq
  · cases hq
    exact { hseeds.pins with held := False.elim }
  · next hi =>
    exact absurd ((eq_zero_of_process? hone hq).trans (eq_zero_of_process? hone hp).symm) hi

/-- A session that has made a user a super-admin, in a process that has the key-value store to
itself and is not in production, has done nothing else to any tier. Whatever anybody does then, as
long as the user is not dropped, this session and every later one are told that the user is a
super-admin, or nothing. Once the user has been dropped, every fresh session is told what the
assignments have made of the user since. -/
theorem superAdmin_until_invalidated {contexts : ContextStore} {spec : EngineSpec Obj}
    (hspec : spec.Retains) (hd : (setUp contexts [spec]).1.Confined d) {answer : Answer}
    (hacts : (d.step (.session name (.actAsSuperAdmin u))).1.1 = .ok answer) :
    let d₀ := (d.step (.session name (.actAsSuperAdmin u))).2
    (∀ {p}, d.process? 0 = some p → p.engine.environment ≠ some .production) ∧
    (∃ x, d.sessions.get? name = some x ∧ Untouched u name x d d₀ ∧
      d₀.world.contexts = d.world.contexts) ∧
    ∀ {d₁}, d₀.Sparing u d₁ →
      (∀ {r}, (d₁.step (.session name (.isSuperAdmin u))).1.1 = .ok r → r = .flag true) ∧
      (∀ {n d₂ r}, (d₁.step (.openSession n 0)).2.Sparing u d₂ →
        (d₂.step (.session n (.isSuperAdmin u))).1.1 = .ok r → r = .flag true) ∧
      ∀ {c d₂ past n d₃ history r}, d₁.Invalidates u c →
        (d₁.step c).2.Since u [(d₁.step c).2.world.assignments] past d₂ →
        (d₂.step (.openSession n 0)).2.Since u past history d₃ →
        (d₃.step (.session n (.snapshot u))).1.1 = .ok r →
          ∃ q, r = .snapshot q ∧ Recalls history u q := by
  intro d₀
  have hmirrors := hd.everywhere (everywhere_mirrors_setUp hspec)
  have hone := hd.processCount.trans (processCount_setUp contexts spec)
  have hd₀ : (setUp contexts [spec]).1.Confined d₀ := hd.command trivial
  obtain ⟨x, p, t, hx, hp, hseeds, hleft⟩ := exists_seeds_of_actAsSuperAdmin hmirrors hacts
  replace hleft : d₀ = d.leave name x p t := hleft
  obtain ⟨hpins, hsees⟩ := pins_of_actAsSuperAdmin hmirrors hone hacts
  replace hpins : d₀.Everywhere (PinsIn False u) := hpins
  replace hsees : d₀.Sees (PinsIn True u) name := hsees
  have hzero : x.process = 0 := eq_zero_of_process? hone hp
  -- the first two parts are about this one step, the others about what may follow it
  refine ⟨fun {q} hq => ?_, ⟨x, hx, ?_, ?_⟩, fun {d₁} hsparing => ?_⟩
  · rw [hzero, hq] at hp
    cases hp
    exact hseeds.environment
  · rw [hleft]
    exact untouched_leave hp hseeds.spares
  · rw [hleft]
    exact hseeds.contexts
  have hd₁ := hsparing.confined hd₀
  obtain ⟨p₁, hp₁⟩ : ∃ p₁, d₁.process? 0 = some p₁ :=
    exists_process_of_engine ((hd₁.engine 0).trans (hd.engine 0).symm) (hzero ▸ hp)
  have hpinned := (hsparing.pins hpins name).1
  refine ⟨fun hr => ?_, fun {n d₂ r} hlater hr => ?_, ?_⟩
  · exact flag_of_isSuperAdmin ((hsparing.pins hpins name).2 hsees) hr
  · have hopened : (d₁.step (.openSession n 0)).2.Everywhere (PinsIn False u) :=
      everywhere_pins_step hpinned trivial rfl fun h => nomatch h.mem_clears
    have hfresh : (d₁.step (.openSession n 0)).2.Sees (PinsIn True u) n :=
      .of_open pinsIn_layers hpinned.each hp₁
    exact flag_of_isSuperAdmin ((hlater.pins hopened n).2 hfresh) hr
  · intro c d₂ past n d₃ history r hinvalidates hsince hfresh hr
    have hmirrors₁ := hd₁.everywhere (everywhere_mirrors_setUp hspec)
    have hone₁ := hd₁.processCount.trans (processCount_setUp contexts spec)
    -- the lower tiers recall nothing older than the assignments at the drop
    have hon := recallingOf_of_invalidates hinvalidates hmirrors₁ hone₁ hp₁
    obtain ⟨b, hb, hon₂, -⟩ := hsince.recalls (List.mem_singleton_self _) hon n
    obtain ⟨p₂, hp₂⟩ := exists_process_of_engine ((hsince.engine 0).trans (engine_step ..)) hp₁
    exact recalls_of_open hb hon₂ hp₂ hfresh hr

theorem retains_trialSpec : trialSpec.Retains := fun hbuild =>
  (Settings.governs_of_build rfl hbuild).persistentTtl_pos

/-- The user 7 is an editor, and a session is open. -/
def entrusted : Deployment (Bare fun _ => none) :=
  (steps [.store (.upsertRole 1 "editor"), .store (.assign 7 1 rootId), .openSession "a" 0]
    (setUp .new [trialSpec]).1).2

theorem confined_entrusted : (setUp .new [trialSpec]).1.Confined entrusted :=
  ((Confined.start.command (c := .store (.upsertRole 1 "editor")) rfl).command
    (c := .store (.assign 7 1 rootId)) rfl).command (c := .openSession "a" 0) trivial

def elevated : Deployment (Bare fun _ => none) :=
  (entrusted.step (.session "a" (.actAsSuperAdmin 7))).2

/-- The user is no editor any more, and the next deletion will be refused. -/
def blocked : Deployment (Bare fun _ => none) :=
  ((elevated.step (.store (.unassign 7 1 rootId))).2.step
    (.store (.refuse .deleteKey 1 (.connection "down")))).2

/-- So the user could not be dropped. -/
def clinging : Deployment (Bare fun _ => none) :=
  (blocked.step (.process 0 (.invalidateShared 7))).2

theorem sparing_clinging : elevated.Sparing 7 clinging := by
  have hblocked : elevated.Sparing 7 blocked :=
    (Sparing.start.command (c := .store (.unassign 7 1 rootId)) rfl rfl
      fun h => nomatch h.mem_clears).command
      (c := .store (.refuse .deleteKey 1 (.connection "down"))) rfl rfl
      fun h => nomatch h.mem_clears
  refine hblocked.command (c := .process 0 (.invalidateShared 7)) trivial rfl ?_
  rintro ⟨-, hok⟩
  exact absurd hok (by decide +kernel)

def rewarmed : Deployment (Bare fun _ => none) := (clinging.step (.process 0 (.warm [7]))).2

theorem invalidates_clinging : clinging.Invalidates 7 (.process 0 (.warm [7])) := by
  have hwarm : (clinging.process? 0).map (fun p => ((Cache.invalidateShared 7).runFrom
      ((Operations.warmEach p.engine.service ([7].take 0)).runFrom
        (p.scene clinging.world .empty)).2).1.isOk) = some true := by decide +kernel
  obtain ⟨p, hp, hok⟩ := Option.map_eq_some_iff.1 hwarm
  exact .warm hp rfl hok

/-- Before, also a session that is opened is told that the user is a super-admin. Afterwards it is
told that the user holds no role. -/
theorem superAdmin_until_invalidated_clinging :
    (clinging.step (.session "a" (.isSuperAdmin 7))).1.1 = .ok (.flag true) ∧
    ((clinging.step (.openSession "b" 0)).2.step (.session "b" (.isSuperAdmin 7))).1.1 =
      .ok (.flag true) ∧
    ∃ q, ((rewarmed.step (.openSession "b" 0)).2.step (.session "b" (.snapshot 7))).1.1 =
      .ok (.snapshot q) ∧ Recalls [rewarmed.world.assignments] 7 q ∧ q.isSuperAdmin = false := by
  have hanswers {x : Except Failure Answer} (hx : x.isOk = true) : ∃ r, x = .ok r := by
    cases x with
    | error e => cases hx
    | ok r => exact ⟨r, rfl⟩
  obtain ⟨_, hacts⟩ := hanswers
    (x := (entrusted.step (.session "a" (.actAsSuperAdmin 7))).1.1) (by decide +kernel)
  obtain ⟨-, -, hlasts⟩ := superAdmin_until_invalidated retains_trialSpec confined_entrusted hacts
  obtain ⟨hown, hlater, hends⟩ := hlasts sparing_clinging
  refine ⟨?_, ?_, ?_⟩
  · obtain ⟨r, hr⟩ := hanswers (x := (clinging.step (.session "a" (.isSuperAdmin 7))).1.1)
      (by decide +kernel)
    rw [hr, hown hr]
  · obtain ⟨r, hr⟩ := hanswers (x := ((clinging.step (.openSession "b" 0)).2.step
      (.session "b" (.isSuperAdmin 7))).1.1) (by decide +kernel)
    rw [hr, hlater .start hr]
  · obtain ⟨r, hr⟩ := hanswers (x := ((rewarmed.step (.openSession "b" 0)).2.step
      (.session "b" (.snapshot 7))).1.1) (by decide +kernel)
    rw [rewarmed] at hr ⊢
    obtain ⟨q, rfl, hq⟩ := hends invalidates_clinging .start .start hr
    refine ⟨q, hr, hq, ?_⟩
    obtain ⟨a, ha, rows, hrows, rfl⟩ := hq
    rw [AssignmentStore.isSuperAdmin_of_load hrows, List.mem_singleton.1 ha]
    decide +kernel

end Deployment

end Clearance
