import Clearance.Proofs.Deployment.Frame
import Clearance.Proofs.Invariant.Vouched
import Clearance.Proofs.Object
import Clearance.Proofs.Session.Decision

/-! Caches without any discipline. Whatever is done in production and in whatever order, a snapshot
that is cached for a user is one that the assignments once gave of that user, so nobody is allowed
what no assignment has ever allowed. -/
namespace Clearance

/-- Some assignments of the past say this of the user. -/
def Recalls (history : List AssignmentStore) (u : UserId) (p : Snapshot) : Prop :=
  ∃ a ∈ history, a.Yields u p

theorem Recalls.cons {history : List AssignmentStore} {u : UserId} {p : Snapshot}
    (h : Recalls history u p) (a : AssignmentStore) : Recalls (a :: history) u p :=
  have ⟨b, hb, hp⟩ := h
  ⟨b, List.mem_cons_of_mem a hb, hp⟩

/-- No bytes are stored under a key as they are given, and what is put into the cache is what was
once loaded of the user. -/
def Command.Faithful {Obj : Type} (history : List AssignmentStore) : Command Obj → Prop
  | .store c => c.setsKey = false
  | .cache _ _ (.put u rows _) => ∃ a ∈ history, a.load u = .ok rows
  | _ => True

variable {Obj : Type}

namespace Deployment

/-- Some tier holds this snapshot of the user. -/
inductive Caches (d : Deployment Obj) (u : UserId) (p : Snapshot) : Prop
  | session {name : String} {s : Session} :
    d.sessions.get? name = some s → s.held.get? u = some p → Caches d u p
  | holder {name : String} {h : Held} :
    d.holders.get? name = some h → h.get? u = some p → Caches d u p
  | shared {i : Nat} {q : Process Obj} :
    d.process? i = some q → q.shared.get? (sharedKey u) = some p → Caches d u p
  | stored {bytes : ByteArray} : d.world.keyValues.get (persistentKey u) = some bytes →
    Snapshot.ofBytes? bytes = some p → Caches d u p

/-- Every engine runs in production, and nothing of any user is cached yet. -/
structure InProduction (d : Deployment Obj) : Prop where
  engines : ∀ {i p}, d.process? i = some p → p.engine.environment = some .production
  sessions : ∀ {name s}, d.sessions.get? name = some s → ∀ u, s.held.get? u = none
  holders : ∀ {name h}, d.holders.get? name = some h → ∀ u, h.get? u = none
  shared : ∀ {i p}, d.process? i = some p → ∀ u, p.shared.get? (sharedKey u) = none
  stored : ∀ u, d.world.keyValues.get (persistentKey u) = none

/-- A deployment that is set up with settings for production is one. -/
theorem inProduction_setUp {contexts : ContextStore} {specs : List (EngineSpec Obj)}
    (h : ∀ s ∈ specs, ∃ settings : Settings, s.source = .settings (some settings) ∧
      settings.environment = .production) : (setUp contexts specs).1.InProduction := by
  have hengine : ∀ s ∈ specs, ∀ {e events}, s.build = .ok (e, events) →
      e.environment = some .production := by
    intro s hs e events hbuild
    obtain ⟨settings, hsource, henvironment⟩ := h s hs
    rw [(EngineSpec.of_build hbuild).2.1 settings hsource, henvironment]
  let nothing : UserId → Snapshot → Prop := fun _ _ => False
  have hon : (Invariant.vouched (fun e => e.environment = some .production) .empty nothing
    nothing).On (setUp contexts specs).1 := Invariant.on_setUp_vouched hengine
  constructor
  · exact hon.engines
  · intro name s hs u
    exact Option.eq_none_iff_forall_ne_some.2 fun p hq => hon.sessions hs u p hq
  · intro name h hh u
    exact Option.eq_none_iff_forall_ne_some.2 fun p hq => hon.holders hh u p hq
  · intro i p hp u
    exact Option.eq_none_iff_forall_ne_some.2 fun q hq => hon.shared hp u q hq
  · intro u
    apply Option.eq_none_iff_forall_ne_some.2
    intro bytes hb
    obtain ⟨p, hp, -⟩ := (hon.stock trivial).2 u bytes hb
    exact hp

end Deployment

namespace Invariant

/-- Every tier holds what the assignments once gave, and the engines run in production. -/
def recalling (history : List AssignmentStore) (a : AssignmentStore) : Invariant Obj :=
  vouched (fun e => e.environment = some .production) a (Recalls history) (Recalls history)

variable {history : List AssignmentStore} {a : AssignmentStore} {d : Deployment Obj}

theorem On.recall (h : (recalling history a).On d) (a' : AssignmentStore) :
    (recalling (a' :: history) a).On d :=
  h.refine (fun _ _ hq => hq.cons a') (fun _ hq => hq.cons a') fun hq => hq.cons a'

theorem recalling_of_inProduction (h : d.InProduction) :
    (recalling history d.world.assignments).On d where
  engines := h.engines
  shared hp u p hq := by cases (h.shared hp u).symm.trans hq
  sessions hs u p hq := by cases (h.sessions hs u).symm.trans hq
  holders hh u p hq := by cases (h.holders hh u).symm.trans hq
  guides _ := trivial
  stock _ := ⟨rfl, fun u bytes hb => by cases (h.stored u).symm.trans hb⟩
  roots _ _ _ := trivial

theorem recalls_of_caches (h : (recalling history a).On d) {u : UserId} {p : Snapshot}
    (hp : d.Caches u p) : Recalls history u p := by
  cases hp with
  | session hs hq => exact h.sessions hs u p hq
  | holder hh hq => exact h.holders hh u p hq
  | shared hi hq => exact h.shared hi u p hq
  | stored hb hq =>
    obtain ⟨q, hgood, rfl⟩ := (h.stock trivial).2 u _ hb
    cases (Snapshot.ofBytes?_toBytes q).symm.trans hq
    exact hgood

variable [DomainObject Obj]

theorem recalling_sound (ha : a ∈ history) : (recalling history a : Invariant Obj).Sound :=
  vouched_sound id fun hrows => ⟨a, ha, _, hrows, rfl⟩

/-- A command that leaves the roles alone brings nothing new. -/
theorem recalling_command (ha : a ∈ history) (h : (recalling history a).On d) {c : Command Obj}
    (hc : c.Faithful history) (hroles : ∀ s, c = .store s → s.changesRoles = false) :
    (recalling history a).On (d.step c).2 := by
  refine (recalling_sound ha).on_step c (fits_vouched (fun s hs => ⟨hroles s hs, ?_⟩)
    (fun _ _ _ _ he => .inl he) fun i holder u rows ttl hs => ?_) h.ready
  · subst hs
    exact hc
  · subst hs
    obtain ⟨b, hb, hrows⟩ := hc
    exact ⟨b, hb, rows, hrows, rfl⟩

/-- Whatever is done, afterwards the tiers hold what the assignments gave before or give now. -/
theorem recalling_step (ha : a ∈ history) (h : (recalling history a).On d) {c : Command Obj}
    (hc : c.Faithful history) :
    (recalling ((d.step c).2.world.assignments :: history) (d.step c).2.world.assignments).On
      (d.step c).2 := by
  by_cases hcases : ∃ s, c = .store s ∧ s.changesRoles = true
  · obtain ⟨s, rfl, hs⟩ := hcases
    obtain ⟨a', hstep, -⟩ := d.exists_reassigned hs
    rw [hstep]
    exact (h.reassign a').recall a'
  · have hroles : ∀ s, c = .store s → s.changesRoles = false := by
      intro s hc
      cases hs : s.changesRoles with
      | false => rfl
      | true => exact absurd ⟨s, hc, hs⟩ hcases
    have hstep := recalling_command ha h hc hroles
    have hsame : (d.step c).2.world.assignments = a := (hstep.stock trivial).1
    rw [hsame]
    exact hstep.recall a

end Invariant

namespace Deployment

variable [DomainObject Obj]

/-- The deployments that are reached, with the assignments that there have been on the way. Entries
of the lower tiers may vanish at any time. -/
inductive Traced (start : Deployment Obj) : List AssignmentStore → Deployment Obj → Prop
  | start : Traced start [start.world.assignments] start
  | command {history : List AssignmentStore} {d : Deployment Obj} {c : Command Obj} :
    Traced start history d → c.Faithful history →
      Traced start ((d.step c).2.world.assignments :: history) (d.step c).2
  | evict {history : List AssignmentStore} {d : Deployment Obj} (i : Nat) (key : String) :
    Traced start history d → Traced start history (d.evict i key)
  | expire {history : List AssignmentStore} {d : Deployment Obj} (key : String) :
    Traced start history d → Traced start history (d.expire key)

variable {start d : Deployment Obj} {history : List AssignmentStore}

theorem Traced.recalling (h : start.Traced history d) (hstart : start.InProduction) :
    ∃ a ∈ history, (Invariant.recalling history a).On d := by
  induction h with
  | start => exact ⟨_, List.mem_singleton_self _, Invariant.recalling_of_inProduction hstart⟩
  | command _ hc ih =>
    obtain ⟨a, ha, hon⟩ := ih
    exact ⟨_, List.mem_cons_self .., Invariant.recalling_step ha hon hc⟩
  | evict i key _ ih =>
    obtain ⟨a, ha, hon⟩ := ih
    exact ⟨a, ha, hon.ready.evict i key⟩
  | expire key _ ih =>
    obtain ⟨a, ha, hon⟩ := ih
    exact ⟨a, ha, hon.expire key⟩

/-- What a snapshot of the past allows was allowed in the past. -/
theorem exists_allowed_of_answer {v : Service Obj} {s : Atlas} {user : UserId} {ability : String}
    {subject : Subject Obj} {q : Snapshot} (hq : Recalls history user q)
    (h : v.answer s q ability subject = .ok true) :
    ∃ a ∈ history, a.holdsRole user Snapshot.superAdmin rootId = true ∨
      ∃ c, v.contextFrom s subject = .ok c ∧ a.allows user ability c = true := by
  obtain ⟨a, ha, rows, hrows, rfl⟩ := hq
  refine ⟨a, ha, ?_⟩
  unfold Service.answer at h
  by_cases hsuper : (Snapshot.ofRows rows).isSuperAdmin = true
  · rw [AssignmentStore.isSuperAdmin_of_load hrows] at hsuper
    exact .inl hsuper
  · rw [if_neg hsuper] at h
    cases hc : v.contextFrom s subject with
    | error e =>
      rw [hc] at h
      cases h
    | ok c =>
      rw [hc] at h
      have hallows := Except.ok.inj h
      rw [AssignmentStore.allows_of_load hrows] at hallows
      exact .inr ⟨c, rfl, hallows⟩

/-- In production every cached snapshot is what some assignments of the past gave of its user, and
whom no policy allows something was a super-admin once or held a role once that has the permission
at the context of the subject or above it. -/
theorem recalls_of_traced (hstart : start.InProduction) (h : start.Traced history d) :
    (∀ u q, d.Caches u q → Recalls history u q) ∧
    ∀ {name s p user ability subject}, d.sessions.get? name = some s →
      d.process? s.process = some p →
      p.engine.service.policies.evaluate user ability subject ≠ some .allow →
      ((p.engine.service.check user ability subject).runFrom (p.scene d.world s.held)).1 =
        .ok true →
      ∃ a ∈ history, a.holdsRole user Snapshot.superAdmin rootId = true ∨
        ∃ c, p.engine.service.contextFrom ⟨d.world, p.root⟩ subject = .ok c ∧
          a.allows user ability c = true := by
  obtain ⟨a, ha, hon⟩ := h.recalling hstart
  refine ⟨fun u q hq => Invariant.recalls_of_caches hon hq, ?_⟩
  intro name s p user ability subject hs hp hpolicy hcheck
  have hscene := hon.onScene hp (hon.sessions hs)
  generalize hrun : (p.engine.service.check user ability subject).runFrom _ = x at hcheck
  obtain ⟨r, s'⟩ := x
  cases hcheck
  cases hresponse : p.engine.service.policies.evaluate user ability subject with
  | some response =>
    have hdecision := Service.decision_of_policy (a := ⟨d.world, p.root⟩) hresponse hrun
    rw [Service.decision, hresponse] at hdecision
    cases response with
    | allow => exact absurd hresponse hpolicy
    | deny => cases hdecision
    | denyBecause reason => cases hdecision
  | none =>
    obtain ⟨q, hq, hanswer⟩ :=
      Service.kept_of_check (Invariant.recalling_sound ha) hscene hresponse hrun
    exact exists_allowed_of_answer hq hanswer

def office : Deployment (Bare fun _ => none) where
  world := .new
  processes := [some (.start ⟨⟨⟨.empty, 25⟩, .empty, {}⟩, {}, some .production⟩)]
  sessions := .empty
  holders := .empty
  guides := .empty
  saved := .empty

theorem inProduction_office : office.InProduction := by
  have hstart : ∀ {i p}, office.process? i = some p →
      p = .start ⟨⟨⟨.empty, 25⟩, .empty, {}⟩, {}, some .production⟩ := by
    intro i p hp
    cases i with
    | zero => exact (Option.some.inj hp).symm
    | succ i => cases hp
  refine ⟨fun hp => ?_, nofun, nofun, fun hp u => ?_, fun u => rfl⟩
  · rw [hstart hp]
    rfl
  · rw [hstart hp]
    rfl

/-- The user 5 is an editor until a session has seen it. To act as a super-admin is refused. -/
def staleOffice : Deployment (Bare fun _ => none) :=
  (steps [.store (.upsertRole 1 "editor"), .store (.grant 1 "edit"), .store (.assign 5 1 rootId),
    .openSession "old" 0, .session "old" (.check 5 "edit" .root),
    .session "old" (.actAsSuperAdmin 5), .store (.unassign 5 1 rootId)] office).2

theorem exists_traced_staleOffice : ∃ history, office.Traced history staleOffice := by
  have hassigned : office.Traced _ _ :=
    ((Traced.start.command (c := .store (.upsertRole 1 "editor")) rfl).command
      (c := .store (.grant 1 "edit")) rfl).command (c := .store (.assign 5 1 rootId)) rfl
  have hserved : office.Traced _ _ :=
    (hassigned.command (c := .openSession "old" 0) trivial).command
      (c := .session "old" (.check 5 "edit" .root)) trivial
  have hlost : office.Traced _ _ :=
    (hserved.command (c := .session "old" (.actAsSuperAdmin 5)) trivial).command
      (c := .store (.unassign 5 1 rootId)) rfl
  exact ⟨_, hlost⟩

/-- The session goes on to allow what the user was allowed once. -/
theorem recalls_of_traced_staleOffice : ∃ history s p, office.Traced history staleOffice ∧
    staleOffice.sessions.get? "old" = some s ∧ staleOffice.process? s.process = some p ∧
    staleOffice.world.assignments.permits 5 "edit" rootId = false ∧
    ((p.engine.service.check 5 "edit" .root).runFrom (p.scene staleOffice.world s.held)).1 =
      .ok true ∧
    ∃ a ∈ history, a.holdsRole 5 Snapshot.superAdmin rootId = true ∨
      ∃ c, p.engine.service.contextFrom ⟨staleOffice.world, p.root⟩ .root = .ok c ∧
        a.allows 5 "edit" c = true := by
  have hrun : (staleOffice.sessions.get? "old").bind (fun s =>
      (staleOffice.process? s.process).map fun p =>
        (p.engine.service.policies.evaluate 5 "edit" .root,
          ((p.engine.service.check 5 "edit" .root).runFrom
            (p.scene staleOffice.world s.held)).1.toOption)) = some (none, some true) := by
    decide +kernel
  obtain ⟨s, hs, hrun⟩ := Option.bind_eq_some_iff.1 hrun
  obtain ⟨p, hp, hrun⟩ := Option.map_eq_some_iff.1 hrun
  obtain ⟨hpolicy, hcheck⟩ := Prod.mk.inj hrun
  have hcheck := Except.eq_ok_of_toOption hcheck
  obtain ⟨history, htraced⟩ := exists_traced_staleOffice
  refine ⟨history, s, p, htraced, hs, hp, by decide +kernel, hcheck, ?_⟩
  exact (recalls_of_traced inProduction_office htraced).2 hs hp (by rw [hpolicy]; nofun) hcheck

end Deployment

end Clearance
