import Clearance.Proofs.Deployment.Apart
import Clearance.Proofs.Deployment.Frame
import Clearance.Proofs.Invariant.Vouched
import Clearance.Proofs.Object
import Clearance.Proofs.Session.Repeatable

/-! Reading again within a session. Whatever others do, and whatever becomes of the stores and of
shared memory, a session sees one snapshot of a user for as long as it does not drop or replace it
itself. -/
namespace Clearance

variable {Obj : Type}

namespace Deployment

def Remembers (d : Deployment Obj) (name : String) (i : Nat) (u : UserId) (q : Snapshot) : Prop :=
  ∃ held, d.sessions.get? name = some ⟨i, held⟩ ∧ held.get? u = some q

variable {d : Deployment Obj} {name : String} {i : Nat} {u : UserId} {q : Snapshot}

theorem engine_evict (d : Deployment Obj) (j : Nat) (key : String) (i : Nat) :
    ((d.evict j key).process? i).map (·.engine) = (d.process? i).map (·.engine) := by
  rw [← getElem?_engines, ← getElem?_engines]
  unfold evict
  cases hp : d.process? j with
  | none => rfl
  | some p => rw [engines_set (q := { p with shared := p.shared.erase key }) hp rfl]

theorem sessions_evict (d : Deployment Obj) (j : Nat) (key : String) :
    (d.evict j key).sessions = d.sessions := by
  unfold evict
  cases d.process? j <;> rfl

section Session

variable {α : Type} {t : Engine Obj → Act Scene Failure α} {s : Session} {p : Process Obj}

theorem runFrom_runInSession (hs : d.sessions.get? name = some s)
    (hp : d.process? s.process = some p) :
    ((runInSession name t).runFrom d).1 = ((t p.engine).runFrom (p.scene d.world s.held)).1 ∧
      ((runInSession name t).runFrom d).2.sessions.get? name =
        some ⟨s.process, ((t p.engine).runFrom (p.scene d.world s.held)).2.held⟩ := by
  rw [runInSession, Act.runFrom_bind_ok (Act.runFrom_get d), hs]
  simp only [runIn, Act.runFrom_ofFun, hp]
  exact ⟨trivial, SortedMap.get?_insert_self ..⟩

theorem remembers_runInSession (hs : d.sessions.get? name = some s)
    (hp : d.process? s.process = some p)
    (ht : ((t p.engine).runFrom (p.scene d.world s.held)).2.Remembers u q) :
    ((runInSession name t).runFrom d).2.Remembers name s.process u q :=
  ⟨_, (runFrom_runInSession hs hp).2, ht⟩

theorem keeps_runInSession (ht : ∀ e, (t e).Keeps (Scene.Remembers u q)) :
    (runInSession name t).Keeps (Remembers · name i u q) := by
  intro d hd
  obtain ⟨held, hs, hq⟩ := hd
  cases hp : d.process? i with
  | none =>
    have hrun : (runInSession name t).runFrom d = (.error .noProcess, d) := by
      rw [runInSession, Act.runFrom_bind_ok (Act.runFrom_get d), hs]
      simp only [runIn, Act.runFrom_ofFun, hp]
    rw [hrun]
    exact ⟨held, hs, hq⟩
  | some p => exact remembers_runInSession (s := ⟨i, held⟩) hs hp (ht p.engine _ hq)

end Session

theorem runFrom_find {r : SubjectRef Obj} {subject : Subject Obj} (h : r.subject d = .ok subject) :
    r.find.runFrom d = (.ok subject, d) := by
  rw [SubjectRef.find, Act.runFrom_bind_ok (Act.runFrom_get d), h]
  rfl

theorem keeps_find (r : SubjectRef Obj) : r.find.Keeps (Remembers · name i u q) := fun _ h => h

end Deployment

variable [DomainObject Obj]

namespace SessionCommand

/-- Whether the command drops or replaces what the session holds of the user. -/
def forgets (u : UserId) : SessionCommand Obj → Bool
  | invalidate v | actAsSuperAdmin v => v = u
  | _ => false

/-- Carried out by a service from the scene `s`, the command looks up the user at the scene `x`. A
check does not if a policy decides, and the subject of a role is resolved first. -/
inductive LooksUp (d : Deployment Obj) (v : Service Obj) (u : UserId) (s : Scene) :
    SessionCommand Obj → Scene → Prop
  | snapshot : LooksUp d v u s (.snapshot u) s
  | isSuperAdmin : LooksUp d v u s (.isSuperAdmin u) s
  | check {ability : String} {r : SubjectRef Obj} {subject : Subject Obj} :
    r.subject d = .ok subject → v.policies.evaluate u ability subject = none →
      LooksUp d v u s (.check u ability r) s
  | authorize {ability : String} {r : SubjectRef Obj} {subject : Subject Obj} :
    r.subject d = .ok subject → v.policies.evaluate u ability subject = none →
      LooksUp d v u s (.authorize u ability r) s
  | hasRole {role : String} {r : SubjectRef Obj} {subject : Subject Obj} {c : Context} {x : Scene} :
    r.subject d = .ok subject → (v.resolve subject).runFrom s = (.ok c, x) →
      LooksUp d v u s (.hasRole u role r) x

variable {d : Deployment Obj} {v : Service Obj} {u : UserId} {q : Snapshot} {s x : Scene}
  {c : SessionCommand Obj}

/-- What the session holds is still there when the command looks up. -/
theorem LooksUp.remembers (h : c.LooksUp d v u s x) (hs : s.Remembers u q) : x.Remembers u q := by
  cases h with
  | @hasRole _ _ subject _ _ _ hc =>
    have hx := Service.keeps_resolve v subject s hs
    rwa [hc] at hx
  | _ => exact hs

end SessionCommand

namespace Deployment

/-- Deployments that are reached while the session neither ends nor drops what it holds of the
user. Other commands come in between, the stores change at will, and shared memory loses entries. -/
inductive Onward (name : String) (u : UserId) (start : Deployment Obj) : Deployment Obj → Prop
  | start : Onward name u start start
  | own {d : Deployment Obj} {c : SessionCommand Obj} : Onward name u start d →
    c.forgets u = false → Onward name u start (d.step (.session name c)).2
  | other {d : Deployment Obj} {c : Command Obj} : Onward name u start d →
    c.concerns name = false → Onward name u start (d.step c).2
  | stores {d : Deployment Obj} (w : World) : Onward name u start d →
    Onward name u start { d with world := w }
  | evict {d : Deployment Obj} (i : Nat) (key : String) : Onward name u start d →
    Onward name u start (d.evict i key)

variable {d : Deployment Obj} {name : String} {i : Nat} {u : UserId} {q : Snapshot}

theorem keeps_session {c : SessionCommand Obj} (hc : c.forgets u = false) :
    (c.perform name).Keeps (Remembers · name i u q) := by
  have hstages (e : Engine Obj) (w : UserId) := Service.remembers_stages (u := u) (q := q) e.service w
  cases c with
  | check w ability r =>
    exact (keeps_find r).bind fun subject => keeps_runInSession fun e =>
      (((hstages e w).check (Service.keeps_resolve _ subject) ability).mapError _).map _
  | authorize w ability r =>
    exact (keeps_find r).bind fun subject => keeps_runInSession fun e =>
      (((hstages e w).authorize (Service.keeps_resolve _ subject) ability).mapError _).map _
  | hasRole w role r =>
    exact (keeps_find r).bind fun subject => keeps_runInSession fun e =>
      (((hstages e w).hasRole (Service.keeps_resolve _ subject) role).mapError _).map _
  | isSuperAdmin w =>
    exact keeps_runInSession fun e => ((hstages e w).isSuperAdmin.mapError _).map _
  | snapshot w => exact keeps_runInSession fun e => ((hstages e w).snapshot.mapError _).map _
  | invalidate w =>
    have hw : w ≠ u := of_decide_eq_false hc
    refine keeps_runInSession fun _ => Act.Keeps.map (Act.Keeps.mapError ?_ _) _
    refine Act.Keeps.bind (Act.keeps_modify fun s hs => ?_) fun _ => Cache.keeps_invalidateShared w
    exact (SortedMap.get?_erase_of_ne _ hw.symm).trans hs
  | actAsSuperAdmin w =>
    have hw : w ≠ u := of_decide_eq_false hc
    refine keeps_runInSession fun e => Act.Keeps.map ?_ _
    have hput : (e.service.actAsSuperAdmin w).Keeps (Scene.Remembers u q) :=
      (Cache.remembers_steps hw).put _ _
    cases e.environment with
    | none => exact hput.mapError _
    | some environment =>
      refine Act.Keeps.mapError ?_ _
      unfold Engine.actAsSuperAdmin
      split
      · exact Act.keeps_throw _
      · exact Act.Keeps.bind (fun _ hs => hs) fun _ => hput.mapError _

/-- A command that looks up the user with success leaves the answer with its session. -/
theorem remembers_of_looksUp {s : Session} {p : Process Obj} {c : SessionCommand Obj} {x : Scene}
    (hs : d.sessions.get? name = some s) (hp : d.process? s.process = some p)
    (hc : c.LooksUp d p.engine.service u (p.scene d.world s.held) x)
    (hq : ((p.engine.service.snapshot u).runFrom x).1 = .ok q) :
    (d.step (.session name c)).2.Remembers name s.process u q := by
  show ((c.perform name).runFrom d).2.Remembers name s.process u q
  cases hc with
  | snapshot =>
    refine remembers_runInSession hs hp ?_
    rw [Act.runFrom_map]
    exact Service.remembers_of_snapshot hq
  | isSuperAdmin =>
    refine remembers_runInSession hs hp ?_
    rw [Act.runFrom_map]
    exact Act.Keeps.left_bind (fun _ => Act.keeps_pure _) (Service.remembers_of_snapshot hq)
  | check hsubject hpolicy =>
    rw [SessionCommand.perform, Act.runFrom_bind_ok (runFrom_find hsubject)]
    refine remembers_runInSession hs hp ?_
    rw [Act.runFrom_map]
    exact Service.remembers_of_check hpolicy hq
  | authorize hsubject hpolicy =>
    rw [SessionCommand.perform, Act.runFrom_bind_ok (runFrom_find hsubject)]
    refine remembers_runInSession hs hp ?_
    rw [Act.runFrom_map]
    exact Service.remembers_of_authorize hpolicy hq
  | hasRole hsubject hcontext =>
    rw [SessionCommand.perform, Act.runFrom_bind_ok (runFrom_find hsubject)]
    refine remembers_runInSession hs hp ?_
    rw [Act.runFrom_map]
    exact Service.remembers_of_hasRole hcontext hq

theorem Onward.remembers {d' : Deployment Obj} (h : Onward name u d d')
    (hd : d.Remembers name i u q) : d'.Remembers name i u q ∧
      (d'.process? i).map (·.engine) = (d.process? i).map (·.engine) := by
  induction h with
  | start => exact ⟨hd, rfl⟩
  | own _ hc ih =>
    exact ⟨keeps_session hc _ ih.1, (engine_step ..).trans ih.2⟩
  | other _ hc ih =>
    obtain ⟨⟨held, hs, hq⟩, hengine⟩ := ih
    exact ⟨⟨held, (session_step _ hc).trans hs, hq⟩, (engine_step ..).trans hengine⟩
  | stores w _ ih => exact ih
  | evict j key _ ih =>
    obtain ⟨⟨held, hs, hq⟩, hengine⟩ := ih
    refine ⟨⟨held, ?_, hq⟩, (engine_evict ..).trans hengine⟩
    rwa [sessions_evict]

/-- A session that holds a snapshot of the user finds it wherever it looks up. -/
theorem Remembers.looks_up {s : Session} {p : Process Obj} {c : SessionCommand Obj} {x : Scene}
    (h : d.Remembers name i u q) (hs : d.sessions.get? name = some s)
    (hc : c.LooksUp d p.engine.service u (p.scene d.world s.held) x) :
    ((p.engine.service.snapshot u).runFrom x).1 = .ok q := by
  obtain ⟨held, hheld, hq⟩ := h
  cases hheld.symm.trans hs
  exact (Service.gives_remembered x (hc.remembers hq)).1

/-- Once a command of a session has looked up a user and found a snapshot, every later look-up of
that user by the session finds the same one, whatever happens in between, until the session itself
drops or replaces it. And what a session holds makes no difference to commands about other sessions,
which leave it as it is. -/
theorem looks_up_again {s : Session} {p : Process Obj} {c : SessionCommand Obj} {x : Scene}
    {d' : Deployment Obj} (hs : d.sessions.get? name = some s)
    (hp : d.process? s.process = some p)
    (hc : c.LooksUp d p.engine.service u (p.scene d.world s.held) x)
    (hq : ((p.engine.service.snapshot u).runFrom x).1 = .ok q)
    (h : Onward name u (d.step (.session name c)).2 d') :
    (∃ s' p', d'.sessions.get? name = some s' ∧ s'.process = s.process ∧
      d'.process? s'.process = some p' ∧ p'.engine = p.engine ∧
      (d'.step (.session name (.snapshot u))).1.1 = .ok (.snapshot q) ∧
      ∀ {c' : SessionCommand Obj} {x' : Scene},
        c'.LooksUp d' p'.engine.service u (p'.scene d'.world s'.held) x' →
          ((p'.engine.service.snapshot u).runFrom x').1 = .ok q) ∧
    ∀ {e e' : Deployment Obj} {y y' : Option Session} {cs : List (Command Obj)},
      Differ name y y' e e' → (∀ c ∈ cs, c.concerns name = false) →
        (steps cs e).1 = (steps cs e').1 ∧ Differ name y y' (steps cs e).2 (steps cs e').2 := by
  refine ⟨?_, fun hdiffer hcs => hdiffer.steps hcs⟩
  obtain ⟨hremembers, hengine⟩ := h.remembers (remembers_of_looksUp hs hp hc hq)
  rw [engine_step, hp] at hengine
  obtain ⟨p', hp', hsame⟩ := Option.map_eq_some_iff.1 hengine
  have hagain {s' : Session} (hs' : d'.sessions.get? name = some s') {c' : SessionCommand Obj}
      {x' : Scene} (hc' : c'.LooksUp d' p'.engine.service u (p'.scene d'.world s'.held) x') :=
    hremembers.looks_up hs' hc'
  obtain ⟨held, hs', -⟩ := hremembers
  refine ⟨⟨s.process, held⟩, p', hs', rfl, hp', hsame, ?_, hagain hs'⟩
  have hanswer := (runFrom_runInSession (t := fun e : Engine Obj =>
    Answer.snapshot <$> (e.service.snapshot u).mapError Failure.engine) hs' hp').1
  refine hanswer.trans ?_
  rw [Act.runFrom_map, Act.runFrom_mapError, hagain hs' .snapshot]
  rfl

/-- Two processes for objects without parents and without policies. The user 5 is an editor, and
each process has a session. -/
def desks : Deployment (Bare fun _ => none) :=
  (steps [.store (.upsertRole 1 "editor"), .store (.grant 1 "edit"), .store (.assign 5 1 rootId),
    .openSession "a" 0, .openSession "b" 1]
    (setUp .new [⟨[], [], .parts {} 25 {}⟩, ⟨[], [], .parts {} 25 {}⟩]).1).2

def asked : Deployment (Bare fun _ => none) := (desks.step (.session "a" (.check 5 "edit" .root))).2

/-- The user is no editor any more, the other process has dropped it, and nothing of it is left in
the lower tiers. -/
def cleared : Deployment (Bare fun _ => none) :=
  let d := (steps [.store (.unassign 5 1 rootId), .process 1 (.invalidateBatch [5]),
    .session "b" (.snapshot 5)] asked).2
  { d with world := { d.world with keyValues := .empty } }.evict 0 (sharedKey 5)

theorem onward_cleared : Onward "a" 5 asked cleared := by
  have hothers : Onward "a" 5 asked _ :=
    ((Onward.start.other (c := .store (.unassign 5 1 rootId)) rfl).other
      (c := .process 1 (.invalidateBatch [5])) rfl).other
      (c := .session "b" (.snapshot 5)) (by decide)
  exact (hothers.stores _).evict 0 (sharedKey 5)

/-- The session still finds the role that the user had. -/
theorem looks_up_again_desks : ∃ q d', Onward "a" 5 asked d' ∧
    d'.world.assignments.permits 5 "edit" rootId = false ∧ q.permits rootId "edit" = true ∧
    (d'.step (.session "a" (.snapshot 5))).1.1 = .ok (.snapshot q) := by
  have hrun : (desks.sessions.get? "a").bind (fun s => (desks.process? s.process).map fun p =>
      (p.engine.service.policies.evaluate 5 "edit" .root,
        ((p.engine.service.snapshot 5).runFrom
          (p.scene desks.world s.held)).1.toOption.map (·.permits rootId "edit"))) =
      some (none, some true) := by
    decide +kernel
  obtain ⟨s, hs, hrun⟩ := Option.bind_eq_some_iff.1 hrun
  obtain ⟨p, hp, hrun⟩ := Option.map_eq_some_iff.1 hrun
  obtain ⟨hpolicy, hsnapshot⟩ := Prod.mk.inj hrun
  obtain ⟨q, hq, hpermits⟩ := Option.map_eq_some_iff.1 hsnapshot
  have hagain := looks_up_again hs hp (.check rfl hpolicy) (Except.eq_ok_of_toOption hq)
    onward_cleared
  obtain ⟨-, -, -, -, -, -, hanswer, -⟩ := hagain.1
  exact ⟨q, cleared, onward_cleared, by decide +kernel, hpermits, hanswer⟩

end Deployment

end Clearance
