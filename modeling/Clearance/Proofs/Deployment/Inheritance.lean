import Clearance.Proofs.Deployment.Repeatable
import Clearance.Proofs.Deployment.Tree
import Clearance.Proofs.Deployment.Within
import Clearance.Proofs.Session.Hierarchy

/-! What a new context begins with. If roles are assigned at stored contexts only, nothing in any
tier is about a context that has not been created yet, so that a new one grants what the context
above it grants, until a role is assigned at it. -/
namespace Clearance

open Atlas (anywhere)
open ContextStore (capacity)

variable {Obj : Type}

namespace Snapshot

variable {q : Snapshot} {n p : Context}

/-- A snapshot that has nothing on a context allows there what it allows at the context above. -/
theorem allows_below (hq : q.at? n.id = none) (hn : n.ancestors = p.ancestors ++ [n.id])
    (ability : String) : q.allows ability n = q.allows ability p := by
  have hpermits : q.permits n.id ability = false := by
    rw [permits, hq]
    rfl
  simp only [allows, hn, List.any_append, List.any_cons, List.any_nil, hpermits, Bool.or_false]

theorem plays_below (hq : q.at? n.id = none) (hn : n.ancestors = p.ancestors ++ [n.id])
    (name : String) : q.plays name n = q.plays name p := by
  have hholds : q.holds n.id name = false := by
    rw [holds, hq]
    rfl
  simp only [plays, hn, List.any_append, List.any_cons, List.any_nil, hholds, Bool.or_false]

end Snapshot

namespace Deployment

/-- The deployments that are reached by commands which are `ok` where they are given. Entries of the
lower tiers may vanish at any time. -/
inductive Reaches (ok : Deployment Obj → Command Obj → Prop) [DomainObject Obj]
    (start : Deployment Obj) : Deployment Obj → Prop
  | start : Reaches ok start start
  | command {d : Deployment Obj} {c : Command Obj} :
    Reaches ok start d → ok d c → Reaches ok start (d.step c).2
  | evict {d : Deployment Obj} (i : Nat) (key : String) :
    Reaches ok start d → Reaches ok start (d.evict i key)
  | expire {d : Deployment Obj} (key : String) :
    Reaches ok start d → Reaches ok start (d.expire key)

def Stored (d : Deployment Obj) (id : ContextId) : Prop :=
  (d.world.contexts.get id).isSome = true

instance (d : Deployment Obj) (id : ContextId) : Decidable (d.Stored id) :=
  inferInstanceAs (Decidable (_ = true))

theorem stored_of_get {d : Deployment Obj} {id : ContextId} {r : Record}
    (h : d.world.contexts.get id = some r) : d.Stored id := Option.isSome_iff_exists.2 ⟨r, h⟩

theorem world_evict (d : Deployment Obj) (i : Nat) (key : String) :
    (d.evict i key).world = d.world := by
  unfold evict
  cases d.process? i <;> rfl

end Deployment

/-- The command makes no contexts past the resolvers, and what it brings in is about stored ones. -/
structure Command.Orderly (d : Deployment Obj) (c : Command Obj) : Prop where
  writesRecords : c.writesRecords = false
  within : c.Within d.Stored

theorem Command.Orderly.of_nil {d : Deployment Obj} {c : Command Obj}
    (hrecords : c.writesRecords = false) (hkey : c.setsKey = false) (hplaces : c.places = []) :
    c.Orderly d := by
  refine ⟨hrecords, hkey, fun id hid => ?_⟩
  rw [hplaces] at hid
  cases hid

theorem SubjectRef.subject_record (d : Deployment Obj) (c : Context) :
    (SubjectRef.record c.record).subject d = .ok (.context c) := by
  rw [subject, Context.ofRecord_record]
  rfl

namespace Answer

def context? : Answer → Option Context
  | context c => some c
  | _ => none

theorem eq_of_context? {x : Answer} {c : Context} (h : x.context? = some c) : x = context c := by
  cases x with
  | context c' => exact congrArg context (Option.some.inj h)
  | _ => cases h

def flag? : Answer → Option Bool
  | flag b => some b
  | _ => none

theorem eq_of_flag? {x : Answer} {b : Bool} (h : x.flag? = some b) : x = flag b := by
  cases x with
  | flag b' => exact congrArg flag (Option.some.inj h)
  | _ => cases h

end Answer

namespace Deployment

section Answers

variable [DomainObject Obj] {d : Deployment Obj} {n p : Context}

/-- Whatever a session asks about a user, it is told the same of both contexts. -/
structure AnswersAlike (d : Deployment Obj) (n p : Context) : Prop where
  check : ∀ (name : String) (user : UserId) (ability : String) {r r' : SubjectRef Obj},
    r.subject d = .ok (.context n) → r'.subject d = .ok (.context p) →
      (d.step (.session name (.check user ability r))).1.1 =
        (d.step (.session name (.check user ability r'))).1.1
  hasRole : ∀ (name : String) (user : UserId) (role : String) {r r' : SubjectRef Obj},
    r.subject d = .ok (.context n) → r'.subject d = .ok (.context p) →
      (d.step (.session name (.hasRole user role r))).1.1 =
        (d.step (.session name (.hasRole user role r'))).1.1

omit [DomainObject Obj] in
theorem answer_runInSession_congr {α : Type} {name : String} {t t' : Engine Obj → Act Scene Failure α}
    (h : ∀ {s p}, d.sessions.get? name = some s → d.process? s.process = some p →
      ((t p.engine).runFrom (p.scene d.world s.held)).1 =
        ((t' p.engine).runFrom (p.scene d.world s.held)).1) :
    ((runInSession name t).runFrom d).1 = ((runInSession name t').runFrom d).1 := by
  cases hs : d.sessions.get? name with
  | none => simp only [runInSession, Act.runFrom_bind_ok (Act.runFrom_get d), hs]
  | some s =>
    cases hp : d.process? s.process with
    | none =>
      simp only [runInSession, Act.runFrom_bind_ok (Act.runFrom_get d), hs, runIn,
        Act.runFrom_ofFun, hp]
    | some p => rw [(runFrom_runInSession hs hp).1, (runFrom_runInSession hs hp).1, h hs hp]

/-- Sessions tell the same of two things that they read off a snapshot of the user, if both are the
same for every snapshot that is about these contexts only. -/
theorem Within.answer_congr {P : ContextId → Prop} (h : d.Within P) {user : UserId}
    {t t' : Engine Obj → Act Scene Error Bool} {view view' : Snapshot → Bool}
    (ht : ∀ e s, ((t e).runFrom s).1 = ((e.service.snapshot user).runFrom s).1.map view)
    (ht' : ∀ e s, ((t' e).runFrom s).1 = ((e.service.snapshot user).runFrom s).1.map view')
    (hview : ∀ q : Snapshot, q.Within P → view q = view' q) (name : String) :
    ((runInSession name fun e => Answer.flag <$> (t e).mapError Failure.engine).runFrom d).1 =
      ((runInSession name fun e => Answer.flag <$> (t' e).mapError Failure.engine).runFrom d).1 := by
  obtain ⟨a, ha, hon⟩ := h
  refine answer_runInSession_congr fun {s p} hs hp => ?_
  have hscene := hon.onScene hp (hon.sessions hs)
  have hsnapshot := (Invariant.within_sound ha).yields_snapshot p.engine.service user
  simp only [Act.runFrom_map, Act.runFrom_mapError, ht, ht']
  generalize hrun : (p.engine.service.snapshot user).runFrom (p.scene d.world s.held) = x
  obtain ⟨r, s'⟩ := x
  cases r with
  | error e => rfl
  | ok q =>
    have hq : q.Within P := (hsnapshot.ok hscene hrun).2
    simp only [Except.map, hview q hq]

/-- Where nothing in any tier is about a context, its answers are those of the one above it. -/
theorem Within.answersAlike (h : d.Within (· ≠ n.id)) (hn : n.ancestors = p.ancestors ++ [n.id]) :
    d.AnswersAlike n p := by
  have hnone : ∀ q : Snapshot, q.Within (· ≠ n.id) → q.at? n.id = none := fun q hq =>
    Option.not_isSome_iff_eq_none.1 fun hat => hq n.id hat rfl
  constructor
  · intro name user ability r r' hr hr'
    show ((SessionCommand.perform name (.check user ability r)).runFrom d).1 =
      ((SessionCommand.perform name (.check user ability r')).runFrom d).1
    simp only [SessionCommand.perform, Act.runFrom_bind_ok (runFrom_find hr),
      Act.runFrom_bind_ok (runFrom_find hr')]
    refine h.answer_congr (fun e => e.service.answer_check_context user ability n)
      (fun e => e.service.answer_check_context user ability p) (fun q hq => ?_) name
    rw [Snapshot.allows_below (hnone q hq) hn]
  · intro name user role r r' hr hr'
    show ((SessionCommand.perform name (.hasRole user role r)).runFrom d).1 =
      ((SessionCommand.perform name (.hasRole user role r')).runFrom d).1
    simp only [SessionCommand.perform, Act.runFrom_bind_ok (runFrom_find hr),
      Act.runFrom_bind_ok (runFrom_find hr')]
    exact h.answer_congr (fun e => e.service.answer_hasRole_context user role n)
      (fun e => e.service.answer_hasRole_context user role p)
      (fun q hq => Snapshot.plays_below (hnone q hq) hn role) name

/-- The context stands below a stored one and is told apart from it by no check and by no question
for a role, until a role is assigned at it. -/
def Inherits (d : Deployment Obj) (n : Context) : Prop :=
  ∃ p : Context, d.world.contexts.Holds p ∧ n.record.parent = some p.id ∧
    n.ancestors = p.ancestors ++ [n.id] ∧
    ∀ {e : Deployment Obj}, d.Reaches (fun _ c => c.Within (· ≠ n.id)) e → e.AnswersAlike n p

theorem Within.reaches {P : ContextId → Prop} (h : d.Within P) (hroot : P rootId)
    {e : Deployment Obj} (he : d.Reaches (fun _ c => c.Within P) e) : e.Within P := by
  induction he with
  | start => exact h
  | command _ hc ih => exact ih.step hroot hc
  | evict i key _ ih => exact ih.evict i key
  | expire key _ ih => exact ih.expire key

theorem Within.inherits {P : ContextId → Prop} (h : d.Within P) (hroot : P rootId)
    (hrooted : d.world.contexts.Rooted anywhere) (hn : d.world.contexts.Holds n) (hnew : ¬P n.id) :
    d.Inherits n := by
  have hne : ∀ id, P id → id ≠ n.id := fun id hid he => hnew (he ▸ hid)
  obtain ⟨p, hp, hparent, hancestors⟩ := hrooted.exists_above hn (hne rootId hroot).symm
  refine ⟨p, hp, hparent, hancestors, fun he => ?_⟩
  exact ((h.mono hne).reaches (hne rootId hroot) he).answersAlike hancestors

end Answers

variable [DomainObject Obj] {d : Deployment Obj} {c : Command Obj}

/-- The contexts are a tree, and for as long as there are numbers left, nothing is about a context
that is not stored. -/
structure Tidy (d : Deployment Obj) : Prop where
  tree : d.Tree anywhere
  within : d.world.contexts.size < capacity → d.Within d.Stored

theorem tidy_setUp (specs : List (EngineSpec Obj)) : Tidy (setUp .new specs).1 :=
  ⟨tree_setUp fun _ _ _ => trivial, fun _ => within_setUp _ specs⟩

namespace Tidy

theorem stored_root (h : d.Tidy) (room : d.world.contexts.size < capacity) : d.Stored rootId :=
  stored_of_get (h.tree.stock room).rooted.root

theorem extends_step (h : d.Tidy) (hc : c.Orderly d)
    (room : (d.step c).2.world.contexts.size < capacity) :
    d.world.contexts.Extends (d.step c).2.world.contexts :=
  (h.tree.step hc.writesRecords (c.registers_of_forall fun _ _ => trivial)).2 room

theorem room_before (h : d.Tidy) (hc : c.Orderly d)
    (room : (d.step c).2.world.contexts.size < capacity) : d.world.contexts.size < capacity :=
  Nat.lt_of_le_of_lt (h.extends_step hc room).size_le room

/-- Nothing is about the contexts that have just been created. -/
theorem within_step (h : d.Tidy) (hc : c.Orderly d)
    (room : (d.step c).2.world.contexts.size < capacity) : (d.step c).2.Within d.Stored := by
  have hroom := h.room_before hc room
  exact (h.within hroom).step (h.stored_root hroom) hc.within

theorem step (h : d.Tidy) (hc : c.Orderly d) : Tidy (d.step c).2 where
  tree := (h.tree.step hc.writesRecords (c.registers_of_forall fun _ _ => trivial)).1
  within room := by
    refine (h.within_step hc room).mono fun id hid => ?_
    obtain ⟨r, hr⟩ := Option.isSome_iff_exists.1 hid
    exact stored_of_get (h.extends_step hc room id r hr)

theorem evict (h : d.Tidy) (i : Nat) (key : String) : Tidy (d.evict i key) where
  tree := h.tree.evict i key
  within room := by
    have hstored : (d.evict i key).Stored = d.Stored := by
      funext id
      rw [Stored, world_evict, Stored]
    rw [hstored]
    exact (h.within (world_evict d i key ▸ room)).evict i key

theorem expire (h : d.Tidy) (key : String) : Tidy (d.expire key) where
  tree := h.tree.expire key
  within room := (h.within room).expire key

theorem reaches (h : d.Tidy) {e : Deployment Obj} (he : d.Reaches Command.Orderly e) : e.Tidy := by
  induction he with
  | start => exact h
  | command _ hc ih => exact ih.step hc
  | evict i key _ ih => exact ih.evict i key
  | expire key _ ih => exact ih.expire key

/-- Whatever context a command has created inherits. -/
theorem inherits (h : d.Tidy) (hc : c.Orderly d)
    (room : (d.step c).2.world.contexts.size < capacity) {n : Context} (hnew : ¬d.Stored n.id)
    (hn : (d.step c).2.world.contexts.Holds n) : (d.step c).2.Inherits n := by
  have hroot := h.stored_root (h.room_before hc room)
  have hrooted := ((h.step hc).tree.stock room).rooted
  exact (h.within_step hc room).inherits hroot hrooted hn hnew

end Tidy

section Resolve

variable {o : Obj} {n : Context}

/-- What is resolved on a tree is stored in the end, and it is the context of the object. -/
theorem Tree.standsFor (h : d.Tree anywhere) {root : Option Context} (hroot : d.HasRoot root)
    (resolver : Resolver) {a : Atlas}
    (hrun : (resolver.resolve (.object o)).runFrom ⟨d.world, root⟩ = (.ok n, a))
    (room : a.world.contexts.size < capacity) :
    n.StandsFor (some (DomainObject.owner o)) a.world.contexts := by
  have hatlas := (Invariant.onAtlas_tree _).1 (h.onAtlas hroot)
  have hplaces : resolver.parents.Places Obj anywhere := fun _ => trivial
  exact ((Resolver.meets_resolveWithin hplaces _ _ o).ok hatlas hrun room).2

theorem Tree.standsFor_of_perform (h : d.Tree anywhere) {r : SubjectRef Obj}
    (hr : r.subject d = .ok (.object o)) {via : ResolvedBy} {d' : Deployment Obj}
    (hrun : ((ResolveCommand.resolve r).perform via).runFrom d = (.ok n, d'))
    (room : d'.world.contexts.size < capacity) :
    n.StandsFor (some (DomainObject.owner o)) d'.world.contexts := by
  have hact : (ResolveCommand.resolve r).toAct.runFrom d =
      (.ok fun resolver : Resolver => resolver.resolve (.object o), d) := by
    rw [ResolveCommand.toAct, Act.runFrom_bind_ok (runFrom_find hr)]
    rfl
  rw [ResolveCommand.perform, Act.runFrom_bind_ok hact] at hrun
  cases via with
  | process i =>
    simp only [runInProcess, runIn, Act.runFrom_ofFun] at hrun
    cases hp : d.process? i with
    | none =>
      rw [hp] at hrun
      cases hrun
    | some p =>
      simp only [hp, Act.runFrom_mapError] at hrun
      obtain ⟨hok, rfl⟩ := Prod.mk.inj hrun
      have hanswer : ((p.engine.service.resolver.resolve (.object o)).runFrom
          ⟨d.world, p.root⟩).1 = .ok n := Except.mapError_eq_ok.1 hok
      exact h.standsFor (.process hp) _ (Prod.ext hanswer rfl) room
  | guide name =>
    simp only [runOnGuide, Act.runFrom_ofFun] at hrun
    cases hg : d.guides.get? name with
    | none =>
      rw [hg] at hrun
      cases hrun
    | some g =>
      simp only [hg] at hrun
      obtain ⟨hok, rfl⟩ := Prod.mk.inj hrun
      exact h.standsFor (.guide hg) _ (Prod.ext (Except.mapError_eq_ok.1 hok) rfl) room

theorem Tree.standsFor_of_resolve (h : d.Tree anywhere) {r : SubjectRef Obj}
    (hr : r.subject d = .ok (.object o)) {via : ResolvedBy} {saveAs : Option String}
    (hanswer : (d.step (.resolve via (.resolve r) saveAs)).1.1 = .ok (.context n))
    (room : (d.step (.resolve via (.resolve r) saveAs)).2.world.contexts.size < capacity) :
    n.StandsFor (some (DomainObject.owner o))
      (d.step (.resolve via (.resolve r) saveAs)).2.world.contexts := by
  generalize hstep : (perform (.resolve via (.resolve r) saveAs)).runFrom d = x
  obtain ⟨answer, d'⟩ := x
  have hsame : (d.step (.resolve via (.resolve r) saveAs)).1.1 = answer ∧
      (d.step (.resolve via (.resolve r) saveAs)).2 = d' := by
    rw [Deployment.step, hstep]
    exact ⟨rfl, rfl⟩
  rw [hsame.2] at room ⊢
  rw [hsame.1] at hanswer
  subst hanswer
  obtain ⟨c', e, hresolve, hsave⟩ := Act.ok_of_bind hstep
  have hworld : d'.world = e.world := by
    cases hsave
    cases saveAs <;> rfl
  cases hsave
  rw [hworld] at room ⊢
  exact h.standsFor_of_perform hr hresolve room

end Resolve

/-- If roles are assigned at stored contexts only, and contexts are made by resolving alone, then
every context that a command creates stands below a stored one and has its answers, whatever a
session has cached of whatever user, until a role is assigned at it. Such a context is what an
object is resolved to that had none before. -/
theorem inherits_until_assigned {specs : List (EngineSpec Obj)}
    (hd : (setUp .new specs).1.Reaches Command.Orderly d) (hc : c.Orderly d)
    (room : (d.step c).2.world.contexts.size < capacity) :
    (∀ n : Context, ¬d.Stored n.id → (d.step c).2.world.contexts.Holds n →
      (d.step c).2.Inherits n) ∧
    ∀ {via : ResolvedBy} {r : SubjectRef Obj} {saveAs : Option String} {o : Obj} {n : Context},
      c = .resolve via (.resolve r) saveAs → r.subject d = .ok (.object o) →
      d.world.contexts.find (DomainObject.owner o) = none →
      (d.step c).1.1 = .ok (.context n) →
      ¬d.Stored n.id ∧ (d.step c).2.world.contexts.Holds n ∧
        n.record.owner? = some (DomainObject.owner o) ∧ (d.step c).2.Inherits n := by
  have htidy : d.Tidy := (tidy_setUp specs).reaches hd
  refine ⟨fun n hnew hn => htidy.inherits hc room hnew hn, ?_⟩
  intro via r saveAs o n hcommand hr hnone hanswer
  have hext := htidy.extends_step hc room
  have hroom := htidy.room_before hc room
  obtain ⟨hn, howner⟩ : n.StandsFor (some (DomainObject.owner o)) (d.step c).2.world.contexts := by
    subst hcommand
    exact htidy.tree.standsFor_of_resolve hr hanswer room
  -- a record that had been stored under the id would have been found for the object
  have hnew : ¬d.Stored n.id := by
    intro hstored
    obtain ⟨r', hr'⟩ := Option.isSome_iff_exists.1 hstored
    have hsame : r' = n.record := Option.some.inj ((hext _ _ hr').symm.trans hn)
    have hfound := (htidy.tree.stock hroom).rooted.find_of_get hr' (hsame ▸ howner)
    cases hnone.symm.trans hfound
  exact ⟨hnew, hn, howner, htidy.inherits hc room hnew hn⟩

def filing : Deployment (Bare inFolder) := (setUp .new [⟨["file"], [], .parts {} 25 {}⟩]).1

/-- The user 5 was an editor of the folder when the session saw it, and is none any more. -/
def filed : Deployment (Bare inFolder) :=
  (steps [.store (.upsertRole 1 "editor"), .store (.grant 1 "edit"),
    .resolve (.process 0) (.resolve (.object ⟨⟨"file", 1⟩⟩)) none, .store (.assign 5 1 2),
    .openSession "old" 0, .session "old" (.check 5 "edit" (.object ⟨⟨"file", 1⟩⟩)),
    .store (.unassign 5 1 2)] filing).2

theorem reaches_filed : filing.Reaches Command.Orderly filed := by
  have hmade : filing.Reaches Command.Orderly _ :=
    ((Reaches.start.command (c := .store (.upsertRole 1 "editor")) (.of_nil rfl rfl rfl)).command
      (c := .store (.grant 1 "edit")) (.of_nil rfl rfl rfl)).command
      (c := .resolve (.process 0) (.resolve (.object ⟨⟨"file", 1⟩⟩)) none) (.of_nil rfl rfl rfl)
  have hassigned : filing.Reaches Command.Orderly _ :=
    hmade.command (c := .store (.assign 5 1 2))
      ⟨rfl, rfl, List.forall_mem_singleton.2 (by decide +kernel)⟩
  have hserved : filing.Reaches Command.Orderly _ :=
    (hassigned.command (c := .openSession "old" 0) (.of_nil rfl rfl rfl)).command
      (c := .session "old" (.check 5 "edit" (.object ⟨⟨"file", 1⟩⟩))) (.of_nil rfl rfl rfl)
  have hlost : filing.Reaches Command.Orderly _ :=
    hserved.command (c := .store (.unassign 5 1 2)) (.of_nil rfl rfl rfl)
  exact hlost

/-- Another file is made known in the folder. The session goes on to allow there what it allows in
the folder, also when another user has become an editor of the folder. -/
theorem inherits_until_assigned_filed :
    let resolve : Command (Bare inFolder) :=
      .resolve (.process 0) (.resolve (.object ⟨⟨"file", 2⟩⟩)) none
    let made := (filed.step resolve).2
    let later := (made.step (.store (.assign 6 1 2))).2
    ∃ n : Context, n.id = 4 ∧ (filed.step resolve).1.1 = .ok (.context n) ∧ made.Inherits n ∧
      (later.step (.session "old" (.check 5 "edit" (.record n.record)))).1.1 =
        .ok (.flag true) := by
  intro resolve made later
  let n : Context := ⟨⟨4, some 2, "file", some 2, 2, "1/2/4/"⟩, [1, 2, 4], by decide +kernel⟩
  let p : Context := ⟨⟨2, some 1, "folder", some 7, 1, "1/2/"⟩, [1, 2], by decide +kernel⟩
  have hanswer : (filed.step resolve).1.1 = .ok (.context n) := by
    have hview : (filed.step resolve).1.1.toOption.bind Answer.context? = some n := by
      decide +kernel
    obtain ⟨answer, hok, hview⟩ := Option.bind_eq_some_iff.1 hview
    rw [Except.eq_ok_of_toOption hok, Answer.eq_of_context? hview]
  have room : made.world.contexts.size < capacity := by decide +kernel
  obtain ⟨-, -, -, hinherits⟩ := (inherits_until_assigned reaches_filed
    (.of_nil rfl rfl rfl : resolve.Orderly filed) room).2 rfl rfl (by decide +kernel) hanswer
  refine ⟨n, rfl, hanswer, hinherits, ?_⟩
  obtain ⟨q, hq, hparent, -, halike⟩ := hinherits
  have hlater : made.Reaches (fun _ c => c.Within (· ≠ n.id)) later :=
    .command .start ⟨rfl, List.forall_mem_singleton.2 (by decide +kernel)⟩
  -- the context above is that of the folder
  have hp : made.world.contexts.Holds p := by
    show made.world.contexts.get 2 = some p.record
    decide +kernel
  have hid : q.id = 2 := (Option.some.inj hparent).symm
  obtain rfl : q = p := by
    apply Context.ext_record
    rw [ContextStore.Holds, hid] at hq
    exact Option.some.inj (hq.symm.trans hp)
  rw [(halike hlater).check "old" 5 "edit" (SubjectRef.subject_record later n)
    (SubjectRef.subject_record later p)]
  have hview : (later.step (.session "old" (.check 5 "edit" (.record p.record)))).1.1.toOption.bind
      Answer.flag? = some true := by decide +kernel
  obtain ⟨answer, hok, hview⟩ := Option.bind_eq_some_iff.1 hview
  rw [Except.eq_ok_of_toOption hok, Answer.eq_of_flag? hview]

end Deployment

end Clearance
