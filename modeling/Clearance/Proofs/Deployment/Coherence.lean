import Clearance.Proofs.Assignment.History
import Clearance.Proofs.Deployment.Discipline
import Clearance.Proofs.Deployment.Drops
import Clearance.Proofs.Deployment.Everywhere

/-! Processes that share nothing but the stores. Whichever process has cached a user and whichever
drops it, a fresh session of any process sees what would be loaded, once the user has been dropped
after the last change that affects it. -/
namespace Clearance

variable {Obj : Type}

namespace Command

def setsKey : Command Obj → Bool
  | .store c => c.setsKey
  | _ => false

/-- The users of whom something is put into the cache that has not been loaded. -/
def seeds : Command Obj → List UserId
  | .session _ (.actAsSuperAdmin u) => [u]
  | .cache _ _ (.put u _ _) => [u]
  | _ => []

/-- The users of whom the cache may hold something else than what would be loaded, now that the
command has been carried out and the assignments are these. -/
def unsettles (a : AssignmentStore) : Command Obj → List UserId
  | .store c => c.affected a
  | c => c.seeds

end Command

section Unshared

def Unshared (e : Engine Obj) (s : Scene) : Prop :=
  e.service.cache.sharedEnabled = false ∧ ∀ u, s.shared.get? (sharedKey u) = none

variable {e : Engine Obj}

theorem unshared_lasting : Lasting (Unshared : Engine Obj → Scene → Prop) := ⟨fun _ h => h, fun _ h => h⟩

theorem unshared_steps (u : UserId) :
    Cache.Steps e.service.cache u fun {_} (t : Act Scene Error _) => t.Keeps (Unshared e) where
  ofExcept := Act.keeps_ofExcept
  bind := Act.Keeps.bind
  heldOf _ h := h
  sharedOf _ h := h
  hold _ _ h := h
  share _ := Act.keeps_modify fun s h => by
    have hkeeps : e.service.cache.sharedKeeps = false := by
      rw [CacheConfig.sharedKeeps, h.1, Bool.false_and, Bool.false_and]
    rw [hkeeps]
    exact h
  getKey _ h := h
  setKey _ _ _ h := h
  deleteKey _ h := h
  loadAssignments _ h := h
  counters _ _ h := h
  count _ _ h := h
  log _ _ h := h

variable [DomainObject Obj]

theorem unshared_upkeep : e.service.Upkeep (Unshared e) where
  fresh h := h
  restored _ h := h
  counters _ h := h
  count _ h := h
  log _ h := h
  resolve _ _ h := h
  find _ _ h := h
  lookUp u := (unshared_steps u).lookUp
  load u := (unshared_steps u).loadSnapshot
  snapshot u := (unshared_steps u).snapshot
  letGo _ _ h := h
  unshare u := by
    have herase : (Cache.unshare u : Act Scene Error Unit).Keeps (Unshared e) :=
      Act.keeps_modify fun s h => ⟨h.1, fun w => SortedMap.get?_erase_of_none (h.2 w)⟩
    exact herase.bind fun _ => (unshared_steps u).deleteKey.bind fun _ =>
      Act.Keeps.bind (fun _ h => h) fun _ _ h => h
  readRecord _ h := h
  writeRecord _ _ _ h := h

theorem unshared_upholds (c : Command Obj) : c.Upholds Unshared where
  upkeep _ := unshared_upkeep
  guide _ _ _ _ h := h
  put {_ u p ttl} _ := (unshared_steps u).put p ttl
  store _ _ _ h := h

end Unshared

/-- An engine that is made like this has no shared tier. -/
def EngineSpec.SharesNothing (s : EngineSpec Obj) : Prop :=
  ∀ {e events}, s.build = .ok (e, events) → e.service.cache.sharedEnabled = false

namespace Deployment

def reassign (d : Deployment Obj) (a : AssignmentStore) : Deployment Obj :=
  { d with world := { d.world with assignments := a } }

theorem current_setUp (contexts : ContextStore) (specs : List (EngineSpec Obj))
    (a : AssignmentStore) : (Invariant.current [] a).On ((setUp contexts specs).1.reassign a) := by
  let nothing : UserId → Snapshot → Prop := fun _ _ => False
  have hon : (Invariant.vouched (fun _ => True) .empty nothing nothing).On (setUp contexts specs).1 :=
    Invariant.on_setUp_vouched fun _ _ _ _ _ => trivial
  exact (hon.reassign a).refine (fun _ _ => False.elim) (fun _ => False.elim) fun _ => trivial

theorem everywhere_unshared_setUp {contexts : ContextStore} {specs : List (EngineSpec Obj)}
    (h : ∀ s ∈ specs, s.SharesNothing) : Everywhere Unshared (setUp contexts specs).1 := by
  let nothing : UserId → Snapshot → Prop := fun _ _ => False
  have hon : (Invariant.vouched (fun e => e.service.cache.sharedEnabled = false) .empty nothing
    nothing).On (setUp contexts specs).1 := Invariant.on_setUp_vouched h
  refine ⟨fun hp => ⟨hon.engines hp, fun u => ?_⟩, .inr fun _ h => h⟩
  exact Option.eq_none_iff_forall_ne_some.2 fun q hq => hon.shared hp u q hq

variable [DomainObject Obj]

/-- The users whom the caches may be behind on after the command, given those before it. A change of
roles that fails affects nobody. -/
def dueAfter (d : Deployment Obj) (c : Command Obj) (users : List UserId) : List UserId :=
  let (outcome, d') := d.step c
  if outcome.1.isOk then (users ++ c.unsettles d'.world.assignments).filter (· ∉ c.drops)
  else users ++ c.seeds

theorem step_of_not_isOk {d : Deployment Obj} {c : StoreCommand} (hc : c.changesRoles = true)
    (h : (d.step (.store c)).1.1.isOk = false) : (d.step (.store c)).2 = d := by
  have hrun := StoreCommand.runFrom_perform hc d.world
  cases hr : c.revision d.world.assignments with
  | ok a =>
    rw [hr] at hrun
    have hok : (d.step (.store c)).1.1 = ((c.perform.runFrom d.world).1).mapError .storage := rfl
    rw [hok, hrun] at h
    cases h
  | error e =>
    rw [hr] at hrun
    show { d with world := (c.perform.runFrom d.world).2 } = d
    rw [hrun]

/-- The deployments that are reached, each with the users who have not been dropped, by whichever
process, since something of theirs has changed. Stored values may expire at any time, and requests
may be refused from any time on. -/
inductive Awaiting (start : Deployment Obj) : List UserId → Deployment Obj → Prop
  | start : Awaiting start [] start
  | command {users : List UserId} {d : Deployment Obj} {c : Command Obj} :
    Awaiting start users d → c.setsKey = false → Awaiting start (d.dueAfter c users) (d.step c).2
  | expire {users : List UserId} {d : Deployment Obj} (key : String) :
    Awaiting start users d → Awaiting start users (d.expire key)
  | disrupt {users : List UserId} {d : Deployment Obj} (x : Disruption) :
    Awaiting start users d → Awaiting start users (d.disrupt x)

end Deployment

namespace Invariant

variable {users : List UserId} {a : AssignmentStore} {d : Deployment Obj}

/-- A user of whom nothing is left in the lower tiers is no exception any more. -/
theorem current_lacks {gone : List UserId} (h : (current users a).On d)
    (hunshared : d.Everywhere Unshared) (hgone : d.world.Lacks gone) :
    (current (users.filter (· ∉ gone)) a).On d := by
  refine h.refine (fun {i p u q} hp hq _ => ?_) (fun {u bytes q} hb hgood => ?_) id
  · cases ((hunshared.each hp).2 u).symm.trans hq
  · have hu : u ∉ gone := fun hmem => by cases (hgone u hmem).symm.trans hb
    exact hgood.imp_left fun hmem => List.mem_filter.2 ⟨hmem, decide_eq_true hu⟩

section Steps

variable [DomainObject Obj]

/-- Everything stays current but for the users whom the command unsettles. -/
theorem current_command (h : (current users a).On d) {c : Command Obj} (hc : c.setsKey = false) :
    ∃ a', (current (users ++ c.unsettles a') a').On (d.step c).2 := by
  have hseeded {u : UserId} : (current (users ++ [u]) a).On d :=
    current_mono h fun _ hv => List.mem_append_left _ hv
  have hlast (u : UserId) : u ∈ users ++ [u] := List.mem_append_right _ (List.mem_singleton_self u)
  have hordinary (hc : c.ordinary = true) :
      ∃ a', (current (users ++ c.unsettles a') a').On (d.step c).2 :=
    ⟨a, current_mono (current_step h hc) fun _ hv => List.mem_append_left _ hv⟩
  cases c with
  | store s =>
    cases hroles : s.changesRoles with
    | true => exact current_change h hroles
    | false =>
      have hkey : s.setsKey = false := hc
      exact hordinary (by rw [Command.ordinary, hroles, hkey]; rfl)
  | session name c =>
    cases c with
    | actAsSuperAdmin u =>
      let I : Invariant Obj := current (users ++ [u]) a
      have hfits : I.Fits (.session name (.actAsSuperAdmin u)) := fun _ _ => .inr (.inl (hlast u))
      exact ⟨a, current_sound.on_step _ hfits hseeded.ready⟩
    | _ => exact hordinary rfl
  | cache i holder c =>
    cases c with
    | put u rows ttl =>
      let I : Invariant Obj := current (users ++ [u]) a
      have hfits : I.Fits (.cache i holder (.put u rows ttl)) := .inl (hlast u)
      exact ⟨a, current_sound.on_step _ hfits hseeded.ready⟩
    | _ => exact hordinary rfl
  | _ => exact hordinary rfl

/-- So it does where the command fails, and a change of roles unsettles nobody then. -/
theorem current_failed (h : (current users a).On d) {c : Command Obj} (hc : c.setsKey = false)
    (hfails : (d.step c).1.1.isOk = false) :
    ∃ a', (current (users ++ c.seeds) a').On (d.step c).2 := by
  have hsame (hall : ∀ a, c.unsettles a = c.seeds) :
      ∃ a', (current (users ++ c.seeds) a').On (d.step c).2 := by
    obtain ⟨a', ha'⟩ := current_command h hc
    exact ⟨a', hall a' ▸ ha'⟩
  cases c with
  | store s =>
    cases hroles : s.changesRoles with
    | true =>
      rw [Deployment.step_of_not_isOk hroles hfails]
      exact ⟨a, current_mono h fun _ hv => List.mem_append_left _ hv⟩
    | false => exact hsame (StoreCommand.affected_of hroles)
  | _ => exact hsame fun _ => rfl

end Steps

def currentOf (u : UserId) (a : AssignmentStore) : Invariant Obj :=
  vouched (fun _ => True) a (fun v p => v = u → a.Yields v p) fun v p => v = u → a.Yields v p

theorem currentOf_sound [DomainObject Obj] {u : UserId} : (currentOf u a : Invariant Obj).Sound :=
  vouched_sound id fun hrows _ => ⟨_, hrows, rfl⟩

/-- A fresh session of any process finds such tiers where the user is no exception. -/
theorem On.onSceneOf {u : UserId} (h : (current users a).On d) (hu : u ∉ users) {i : Nat}
    {p : Process Obj} (hp : d.process? i = some p) :
    (currentOf u a : Invariant Obj).OnScene (p.scene d.world .empty) := by
  have hgood : ∀ {v q}, v ∈ users ∨ a.Yields v q → v = u → a.Yields v q := by
    rintro v q hq rfl
    exact hq.resolve_left hu
  have hall : (vouched (fun _ => True) a (fun v q => v = u → a.Yields v q) fun _ _ => True).On d :=
    h.refine (fun _ _ => hgood) (fun _ => hgood) id
  exact ⟨fun room => ⟨hall.stock room, trivial⟩, hall.shared hp, held_empty⟩

end Invariant

namespace Deployment

variable [DomainObject Obj] {start d : Deployment Obj} {users : List UserId}

theorem Awaiting.current {a : AssignmentStore} (h : start.Awaiting users d)
    (hunshared : Everywhere Unshared start) (hstart : (Invariant.current [] a).On start) :
    (Invariant.current users d.world.assignments).On d ∧ Everywhere Unshared d := by
  suffices hex : ∃ a, (Invariant.current users a).On d ∧ Everywhere Unshared d by
    obtain ⟨a, ha, hd⟩ := hex
    exact ⟨ha.assignments ▸ ha, hd⟩
  induction h with
  | start => exact ⟨_, hstart, hunshared⟩
  | @command users d c _ hc ih =>
    obtain ⟨a, ha, hd⟩ := ih
    have hd' := hd.step unshared_lasting (unshared_upholds c)
    cases hok : (d.step c).1.1.isOk with
    | true =>
      obtain ⟨a', ha'⟩ := Invariant.current_command ha hc
      have hlacks := (meets_drops c).of_isOk trivial hok
      simp only [dueAfter, hok, ha'.assignments, if_true]
      exact ⟨a', Invariant.current_lacks ha' hd' hlacks, hd'⟩
    | false =>
      obtain ⟨a', ha'⟩ := Invariant.current_failed ha hc hok
      simp only [dueAfter, hok, Bool.false_eq_true, if_false]
      exact ⟨a', ha', hd'⟩
  | expire key _ ih =>
    obtain ⟨a, ha, hd⟩ := ih
    exact ⟨a, ha.expire key, hd.reworld fun _ h => h⟩
  | disrupt x _ ih =>
    obtain ⟨a, ha, hd⟩ := ih
    exact ⟨a, ha.disrupt x, hd.reworld fun _ h => h⟩

/-- In a fresh session of whichever process, what is found of a user who is not awaiting its drop is
what would be loaded now. -/
theorem snapshot_eq_load {contexts : ContextStore} {specs : List (EngineSpec Obj)}
    (hspecs : ∀ s ∈ specs, s.SharesNothing) {a : AssignmentStore}
    (hd : ((setUp contexts specs).1.reassign a).Awaiting users d) {i : Nat}
    {p : Process Obj} (hp : d.process? i = some p) {u : UserId} (hu : u ∉ users) {q : Snapshot}
    (hq : ((p.engine.service.snapshot u).runFrom (p.scene d.world .empty)).1 = .ok q) :
    ∃ rows, d.world.assignments.load u = .ok rows ∧ q = .ofRows rows := by
  have hunshared : Everywhere Unshared ((setUp contexts specs).1.reassign a) :=
    (everywhere_unshared_setUp hspecs).reworld fun _ h => h
  obtain ⟨hon, -⟩ := hd.current hunshared (current_setUp contexts specs a)
  let I : Invariant Obj := .currentOf u d.world.assignments
  have hyields : (p.engine.service.snapshot u).Yields I.OnScene (I.kept u) :=
    Invariant.currentOf_sound.yields_snapshot p.engine.service u
  exact (hyields.ok (hon.onSceneOf hu hp) (Prod.ext hq rfl)).2 rfl

def branch : EngineSpec (Bare fun _ => none) := ⟨[], [], .parts { sharedEnabled := false } 25 {}⟩

theorem sharesNothing_branch : branch.SharesNothing := fun h => by
  cases h
  rfl

def branches : Deployment (Bare fun _ => none) := (setUp .new [branch, branch]).1.reassign .empty

/-- The user 5 is an editor for a while. The first process finds out, and a session of it stays open;
the second one drops the user when it is no editor any more. -/
def droppedElsewhere : Deployment (Bare fun _ => none) :=
  (steps [.store (.upsertRole 1 "editor"), .store (.grant 1 "edit"), .store (.assign 5 1 rootId),
    .process 1 (.invalidateShared 5), .openSession "a" 0, .session "a" (.snapshot 5),
    .store (.unassign 5 1 rootId), .process 1 (.invalidateAll 5)]
    branches).2

theorem awaiting_droppedElsewhere :
    ∃ users, branches.Awaiting users droppedElsewhere ∧ 5 ∉ users := by
  have hassigned : branches.Awaiting _ _ :=
    ((Awaiting.start.command (c := .store (.upsertRole 1 "editor")) rfl).command
      (c := .store (.grant 1 "edit")) rfl).command (c := .store (.assign 5 1 rootId)) rfl
  have hserved : branches.Awaiting _ _ :=
    ((hassigned.command (c := .process 1 (.invalidateShared 5)) rfl).command
      (c := .openSession "a" 0) rfl).command (c := .session "a" (.snapshot 5)) rfl
  exact ⟨_, (hserved.command (c := .store (.unassign 5 1 rootId)) rfl).command
    (c := .process 1 (.invalidateAll 5)) rfl, by decide +kernel⟩

/-- The session still holds the role, and a fresh one of its process finds what would be loaded. -/
theorem snapshot_eq_load_droppedElsewhere :
    (droppedElsewhere.sessions.get? "a").map (fun s =>
      (s.held.get? 5).map fun q => q.permits rootId "edit") = some (some true) ∧
    ∃ p q rows, droppedElsewhere.process? 0 = some p ∧
      ((p.engine.service.snapshot 5).runFrom (p.scene droppedElsewhere.world .empty)).1 = .ok q ∧
      q.permits rootId "edit" = false ∧
      droppedElsewhere.world.assignments.load 5 = .ok rows ∧ q = .ofRows rows := by
  refine ⟨by decide +kernel, ?_⟩
  have hrun : (droppedElsewhere.process? 0).map (fun p => ((p.engine.service.snapshot 5).runFrom
      (p.scene droppedElsewhere.world .empty)).1.toOption.map (·.permits rootId "edit")) =
      some (some false) := by
    decide +kernel
  obtain ⟨p, hp, hrun⟩ := Option.map_eq_some_iff.1 hrun
  obtain ⟨q, hq, hpermits⟩ := Option.map_eq_some_iff.1 hrun
  have hq := Except.eq_ok_of_toOption hq
  obtain ⟨users, hawaiting, hu⟩ := awaiting_droppedElsewhere
  have hspecs : ∀ s ∈ [branch, branch], s.SharesNothing := by
    intro s hs
    rw [List.eq_of_mem_replicate (n := 2) hs]
    exact sharesNothing_branch
  obtain ⟨rows, hrows, hload⟩ := snapshot_eq_load hspecs hawaiting hp hu hq
  exact ⟨p, q, rows, hp, hq, hpermits, hrows, hload⟩

end Deployment

end Clearance
