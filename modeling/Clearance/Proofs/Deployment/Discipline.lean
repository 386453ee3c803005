import Clearance.Proofs.Deployment.Frame
import Clearance.Proofs.Deployment.Store
import Clearance.Proofs.Invariant.Vouched
import Clearance.Proofs.Object
import Clearance.Proofs.Session.Decision

/-! Caches under a discipline. Where the users that a change of roles affects are invalidated before
anything else is asked, the lower tiers hold nothing but what would be loaded now, and a fresh
session decides as if nothing were cached. -/
namespace Clearance

/-- A command that changes no roles and brings nothing into the cache past a service. -/
def Command.ordinary {Obj : Type} : Command Obj → Bool
  | .store c => !c.changesRoles && !c.setsKey
  | .session _ (.actAsSuperAdmin _) => false
  | .cache _ _ (.put ..) => false
  | _ => true

variable {Obj : Type}

namespace Deployment

section Runs

variable [DomainObject Obj]

/-- Each of the users in turn has been invalidated with success; entries may have vanished in
between. -/
inductive Drops : List UserId → Deployment Obj → Deployment Obj → Prop
  | done {d : Deployment Obj} : Drops [] d d
  | invalidate {u : UserId} {users : List UserId} {d d' : Deployment Obj} :
    (d.step (.process 0 (.invalidateShared u))).1.1.isOk = true →
      Drops users (d.step (.process 0 (.invalidateShared u))).2 d' → Drops (u :: users) d d'
  | evict {users : List UserId} {d d' : Deployment Obj} (i : Nat) (key : String) :
    Drops users (d.evict i key) d' → Drops users d d'
  | expire {users : List UserId} {d d' : Deployment Obj} (key : String) :
    Drops users (d.expire key) d' → Drops users d d'

/-- The deployments that are reached when every change of roles is followed by the invalidation of
all users that it affects. -/
inductive Disciplined (start : Deployment Obj) : Deployment Obj → Prop
  | start : Disciplined start start
  | command {d : Deployment Obj} {c : Command Obj} :
    Disciplined start d → c.ordinary = true → Disciplined start (d.step c).2
  | change {d d' : Deployment Obj} {c : StoreCommand} {users : List UserId} :
    Disciplined start d → c.changesRoles = true →
      (∀ u ∈ c.affected (d.step (.store c)).2.world.assignments, u ∈ users) →
      Drops users (d.step (.store c)).2 d' → Disciplined start d'
  | evict {d : Deployment Obj} (i : Nat) (key : String) :
    Disciplined start d → Disciplined start (d.evict i key)
  | expire {d : Deployment Obj} (key : String) :
    Disciplined start d → Disciplined start (d.expire key)

end Runs

theorem processCount_evict (d : Deployment Obj) (i : Nat) (key : String) :
    (d.evict i key).processCount = d.processCount := by
  unfold evict
  cases d.process? i with
  | none => rfl
  | some p => exact List.length_set ..

theorem processCount_setUp (contexts : ContextStore) (spec : EngineSpec Obj) :
    (setUp contexts [spec]).1.processCount = 1 := by
  show ((addProcess _ spec).1).processes.length = 1
  unfold addProcess
  cases spec.build with
  | ok x => rfl
  | error e => rfl

end Deployment

namespace Invariant

/-- The lower tiers hold what would be loaded now, except of some users. -/
def current (users : List UserId) (a : AssignmentStore) : Invariant Obj :=
  vouched (fun _ => True) a (fun u p => u ∈ users ∨ a.Yields u p) fun _ _ => True

def fresh (a : AssignmentStore) : Invariant Obj := vouched (fun _ => True) a a.Yields a.Yields

variable {users : List UserId} {a : AssignmentStore} {d d' : Deployment Obj}

theorem current_mono {users' : List UserId} (h : (current users a).On d)
    (husers : ∀ u ∈ users, u ∈ users') : (current users' a).On d :=
  h.refine (fun _ _ hq => hq.imp_left (husers _)) (fun _ hq => hq.imp_left (husers _)) id

theorem On.assignments (h : (current users a).On d) : d.world.assignments = a :=
  (h.stock trivial).1

/-- What a fresh session sees and comes to hold is current where no user is excepted. -/
theorem On.onFreshScene (h : (current [] a).On d) {i : Nat} {p : Process Obj}
    (hp : d.process? i = some p) : (fresh a : Invariant Obj).OnScene (p.scene d.world .empty) := by
  have hgood : ∀ {u q}, u ∈ [] ∨ a.Yields u q → a.Yields u q :=
    fun hq => hq.resolve_left List.not_mem_nil
  have hall : (vouched (fun _ => True) a a.Yields fun _ _ => True).On d :=
    h.refine (fun _ _ => hgood) (fun _ => hgood) id
  exact ⟨fun room => ⟨hall.stock room, trivial⟩, hall.shared hp, held_empty⟩

theorem fits_current {c : Command Obj} (hc : c.ordinary = true) : (current users a).Fits c := by
  refine fits_vouched (fun s hs => ?_) (fun name u hs => ?_) fun i holder u rows ttl hs => ?_
  · subst hs
    simpa [Command.ordinary] using hc
  · subst hs
    cases hc
  · subst hs
    cases hc

variable [DomainObject Obj]

theorem current_sound : (current users a : Invariant Obj).Sound :=
  vouched_sound (fun _ => trivial) fun hrows => .inr ⟨_, hrows, rfl⟩

theorem fresh_sound : (fresh a : Invariant Obj).Sound :=
  vouched_sound id fun hrows => ⟨_, hrows, rfl⟩

theorem current_step (h : (current users a).On d) {c : Command Obj} (hc : c.ordinary = true) :
    (current users a).On (d.step c).2 :=
  current_sound.on_step c (fits_current hc) h.ready

theorem current_invalidate {u : UserId} (h : (current (u :: users) a).On d)
    (hone : d.processCount = 1)
    (hok : (d.step (.process 0 (.invalidateShared u))).1.1.isOk = true) :
    (current users a).On (d.step (.process 0 (.invalidateShared u))).2 := by
  have hstep := current_step h (c := .process 0 (.invalidateShared u)) rfl
  have hone' := (Deployment.processCount_step d (.process 0 (.invalidateShared u))).trans hone
  obtain ⟨hshared, hstored⟩ := Deployment.lacks_of_invalidate hok
  refine hstep.refine (fun {i p v q} hp hq hgood => ?_) (fun {v bytes q} hb hgood => ?_) id
  · have hv : v ≠ u := by
      rintro rfl
      cases Deployment.eq_zero_of_process? hone' hp
      cases (hshared hp).symm.trans hq
    exact hgood.imp_left fun hmem => (List.mem_cons.1 hmem).resolve_left hv
  · have hv : v ≠ u := by
      rintro rfl
      cases hstored.symm.trans hb
    exact hgood.imp_left fun hmem => (List.mem_cons.1 hmem).resolve_left hv

/-- After the invalidations the invariant speaks of every user again. -/
theorem current_drops (hdrops : d.Drops users d') (h : (current users a).On d)
    (hone : d.processCount = 1) : (current [] a).On d' ∧ d'.processCount = 1 := by
  induction hdrops with
  | done => exact ⟨h, hone⟩
  | invalidate hok _ ih =>
    exact ih (current_invalidate h hone hok) ((Deployment.processCount_step ..).trans hone)
  | evict i key _ ih => exact ih (h.ready.evict i key) ((Deployment.processCount_evict ..).trans hone)
  | expire key _ ih => exact ih (h.expire key) hone

/-- A change of roles leaves everything current but the users that it affects. -/
theorem current_change (h : (current users a).On d) {c : StoreCommand}
    (hc : c.changesRoles = true) :
    ∃ a', (current (users ++ c.affected a') a').On (d.step (.store c)).2 := by
  obtain ⟨a', hstep, hload⟩ := d.exists_reassigned hc
  refine ⟨a', hstep ▸ ?_⟩
  -- who is not affected has the same rows as before
  have hkeep : ∀ {u q}, u ∈ users ∨ a.Yields u q → u ∈ users ++ c.affected a' ∨ a'.Yields u q := by
    intro u q hq
    by_cases hu : u ∈ users ++ c.affected a'
    · exact .inl hu
    · rw [List.mem_append, not_or] at hu
      obtain ⟨rows, hrows, hp⟩ := hq.resolve_left hu.1
      refine .inr ⟨rows, ?_, hp⟩
      rw [hload u hu.2, h.assignments]
      exact hrows
  exact (h.reassign a').refine (fun _ _ => hkeep) (fun _ => hkeep) id

end Invariant

namespace Deployment

variable [DomainObject Obj]

theorem Disciplined.current {start d : Deployment Obj} (h : start.Disciplined d)
    (hstart : (Invariant.current [] start.world.assignments).On start)
    (hone : start.processCount = 1) :
    (Invariant.current [] d.world.assignments).On d ∧ d.processCount = 1 := by
  suffices hex : ∃ a, (Invariant.current [] a).On d ∧ d.processCount = 1 by
    obtain ⟨a, ha, hcount⟩ := hex
    exact ⟨ha.assignments ▸ ha, hcount⟩
  induction h with
  | start => exact ⟨_, hstart, hone⟩
  | command _ hc ih =>
    obtain ⟨a, ha, hcount⟩ := ih
    exact ⟨a, Invariant.current_step ha hc, (processCount_step ..).trans hcount⟩
  | change _ hc husers hdrops ih =>
    obtain ⟨a, ha, hcount⟩ := ih
    obtain ⟨a', ha'⟩ := Invariant.current_change ha hc
    rw [ha'.assignments] at husers
    exact ⟨a', Invariant.current_drops hdrops (Invariant.current_mono ha' husers)
      ((processCount_step ..).trans hcount)⟩
  | evict i key _ ih =>
    obtain ⟨a, ha, hcount⟩ := ih
    exact ⟨a, ha.ready.evict i key, (processCount_evict ..).trans hcount⟩
  | expire key _ ih =>
    obtain ⟨a, ha, hcount⟩ := ih
    exact ⟨a, ha.expire key, hcount⟩

/-- A check in a fresh session decides as the stores alone do, for every run in which the users are
invalidated whom a change of roles affects. -/
theorem check_eq_decision (contexts : ContextStore) (spec : EngineSpec Obj) {d : Deployment Obj}
    (hd : (setUp contexts [spec]).1.Disciplined d) {p : Process Obj} (hp : d.process? 0 = some p)
    {user : UserId} {ability : String} {subject : Subject Obj} {b : Bool}
    (hcheck : ((p.engine.service.check user ability subject).runFrom
      (p.scene d.world .empty)).1 = .ok b) :
    p.engine.service.decision ⟨d.world, p.root⟩ user ability subject = .ok b := by
  have hstart : (Invariant.current [] .empty).On (setUp contexts [spec]).1 :=
    Invariant.on_setUp_vouched fun _ _ => fun _ => trivial
  have hon := (hd.current (hstart.assignments.symm ▸ hstart) (processCount_setUp ..)).1
  have hscene := hon.onFreshScene hp
  generalize hrun : (p.engine.service.check user ability subject).runFrom _ = x at hcheck
  obtain ⟨r, s'⟩ := x
  cases hcheck
  cases hpolicy : p.engine.service.policies.evaluate user ability subject with
  | some response => exact Service.decision_of_policy hpolicy hrun
  | none =>
    obtain ⟨q, ⟨rows, hrows, rfl⟩, hanswer⟩ :=
      Service.kept_of_check Invariant.fresh_sound hscene hpolicy hrun
    have hload := Service.answer_of_load (a := ⟨d.world, p.root⟩) hpolicy hrows
    exact hload.symm.trans hanswer

def alone : Deployment (Bare fun _ => none) := (setUp .new [⟨[], [], .parts {} 25 {}⟩]).1

/-- The user 5 is an editor for a while, as a session finds out that stays open. -/
def editorForAWhile : Deployment (Bare fun _ => none) :=
  (steps [.store (.upsertRole 1 "editor"), .store (.grant 1 "edit"), .store (.assign 5 1 rootId),
    .process 0 (.invalidateShared 5), .openSession "old" 0, .session "old" (.check 5 "edit" .root),
    .store (.unassign 5 1 rootId), .process 0 (.invalidateShared 5)] alone).2

theorem disciplined_editorForAWhile : alone.Disciplined editorForAWhile := by
  have hnobody : ∀ {users : List UserId}, users = [] → ∀ u ∈ users, u ∈ [] := fun h u hu => h ▸ hu
  have hrole : alone.Disciplined _ :=
    Disciplined.start.change (c := .upsertRole 1 "editor") rfl (hnobody (by decide +kernel)) .done
  have hgranted : alone.Disciplined _ :=
    hrole.change (c := .grant 1 "edit") rfl (hnobody (by decide +kernel)) .done
  have hassigned : alone.Disciplined _ :=
    hgranted.change (c := .assign 5 1 rootId) rfl (fun _ hu => hu)
      (.invalidate (u := 5) (by decide +kernel) .done)
  have hserved : alone.Disciplined _ :=
    (hassigned.command (c := .openSession "old" 0) rfl).command
      (c := .session "old" (.check 5 "edit" .root)) rfl
  exact hserved.change (c := .unassign 5 1 rootId) rfl (fun _ hu => hu)
    (.invalidate (u := 5) (by decide +kernel) .done)

/-- The session still holds the role of the user, and a fresh one decides by the stores. -/
theorem check_eq_decision_editorForAWhile :
    (editorForAWhile.sessions.get? "old").map (fun s =>
      (s.held.get? 5).map fun q => q.permits rootId "edit") = some (some true) ∧
    ∃ p, editorForAWhile.process? 0 = some p ∧
      ((p.engine.service.check 5 "edit" .root).runFrom
        (p.scene editorForAWhile.world .empty)).1 = .ok false ∧
      p.engine.service.decision ⟨editorForAWhile.world, p.root⟩ 5 "edit" .root = .ok false := by
  refine ⟨by decide +kernel, ?_⟩
  have hcheck : (editorForAWhile.process? 0).map (fun p =>
      ((p.engine.service.check 5 "edit" .root).runFrom
        (p.scene editorForAWhile.world .empty)).1.toOption) = some (some false) := by
    decide +kernel
  obtain ⟨p, hp, hcheck⟩ := Option.map_eq_some_iff.1 hcheck
  have hcheck := Except.eq_ok_of_toOption hcheck
  exact ⟨p, hp, hcheck, check_eq_decision .new ⟨[], [], .parts {} 25 {}⟩
    disciplined_editorForAWhile hp hcheck⟩

end Deployment

end Clearance
