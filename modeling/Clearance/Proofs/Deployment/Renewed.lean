import Clearance.Proofs.Deployment.Coherence
import Clearance.Proofs.Deployment.History
import Clearance.Proofs.Deployment.Pinned

/-! Users who have been dropped. Once the deletion of what is stored of a user is carried out, the
tiers that fresh sessions see have nothing of it but what has been loaded since. -/
namespace Clearance

variable {Obj : Type}

theorem Scene.Mirrors.lacks {c : CacheConfig} {s : Scene} {u : UserId} (h : s.Mirrors c)
    (hstored : s.world.keyValues.get (persistentKey u) = none) : s.Lacks u := by
  refine ⟨Option.eq_none_iff_forall_ne_some.2 fun q hq => ?_, hstored⟩
  cases (Mirror.stored h hq).symm.trans hstored

namespace Command

theorem Puts.mem_seeds {c : Command Obj} {e : Engine Obj} {u : UserId} {p : Snapshot} {ttl : Nat}
    (h : c.Puts e u p ttl) : u ∈ c.seeds := by
  cases c with
  | session name c =>
    cases c with
    | actAsSuperAdmin v => exact List.mem_singleton.2 h.1.symm
    | _ => cases h
  | cache i holder c =>
    cases c with
    | put v rows t => exact List.mem_singleton.2 h.1.symm
    | _ => cases h
  | _ => cases h

end Command

namespace Invariant

/-- The lower tiers hold of the user what some assignments of the past gave, and so does the first
tier if it counts. -/
def recallingOf (own : Prop) (u : UserId) (history : List AssignmentStore) (a : AssignmentStore) :
    Invariant Obj :=
  vouched (fun _ => True) a (fun w p => w = u → Recalls history w p)
    fun w p => own → w = u → Recalls history w p

variable {own : Prop} {u : UserId} {history : List AssignmentStore} {a b : AssignmentStore}
  {d : Deployment Obj} {s : Scene}

theorem On.recallOf (h : (recallingOf False u history a).On d) (b : AssignmentStore) :
    (recallingOf False u (b :: history) a).On d :=
  h.refine (fun _ _ hq hw => (hq hw).cons b) (fun _ hq hw => (hq hw).cons b) fun _ => False.elim

theorem onScene_of_lacks {c : CacheConfig} (hmirror : s.Mirrors c) (hlacks : s.Lacks u) :
    (recallingOf False u history s.world.assignments : Invariant Obj).OnScene s where
  atlas _ := by
    refine ⟨⟨rfl, fun w bytes hb => ?_⟩, trivial⟩
    obtain ⟨p, -, rfl⟩ := Mirror.decodes hmirror w bytes hb
    refine ⟨p, ?_, rfl⟩
    rintro rfl
    cases hlacks.2.symm.trans hb
  shared w p hp := by
    rintro rfl
    cases hlacks.1.symm.trans hp
  held _ _ _ := False.elim

/-- If there is one process only, it is enough that fresh sessions of it see it. -/
theorem on_of_onScene (hone : d.processCount = 1) {i : Nat} {p : Process Obj}
    (hp : d.process? i = some p)
    (h : (recallingOf False u history a : Invariant Obj).OnScene (p.scene d.world .empty)) :
    (recallingOf False u history a).On d where
  engines _ := trivial
  shared {j q} hq := by
    cases Deployment.eq_zero_of_process? hone hq
    cases Deployment.eq_zero_of_process? hone hp
    cases hp.symm.trans hq
    exact h.shared
  sessions _ _ _ _ := False.elim
  holders _ _ _ _ := False.elim
  guides _ := trivial
  stock room := (h.atlas room).1
  roots _ _ _ := trivial

end Invariant

/-- What a session of the engine sees of the user is recalled. -/
def RecallsIn (own : Prop) (u : UserId) (history : List AssignmentStore) (a : AssignmentStore)
    (_ : Engine Obj) (s : Scene) : Prop :=
  (Invariant.recallingOf own u history a : Invariant Obj).OnScene s

section RecallsIn

variable {own : Prop} {u : UserId} {history history' : List AssignmentStore}
  {a b : AssignmentStore} {d d' : Deployment Obj} {name : String}

theorem recallsIn_layers :
    Deployment.Layers (RecallsIn False u history a : Engine Obj → Scene → Prop)
      (RecallsIn True u history a) where
  fresh h := ⟨h.atlas, h.shared, Invariant.held_empty⟩
  join h h' := ⟨h'.atlas, h'.shared, h.held⟩

theorem Deployment.Sees.recallsIn (h : d.Sees (RecallsIn True u history a) name)
    (hon : (Invariant.recallingOf False u history' b).On d')
    (hsession : d'.sessions.get? name = d.sessions.get? name)
    (hengine : ∀ i, (d'.process? i).map (·.engine) = (d.process? i).map (·.engine))
    (hmore : ∀ {q}, Recalls history u q → Recalls history' u q) :
    d'.Sees (RecallsIn True u history' b) name := by
  refine h.carry (T := RecallsIn False u history' b) hsession hengine
    (fun hp => hon.onScene hp Invariant.held_empty) fun hs hs' => ⟨hs'.atlas, hs'.shared, ?_⟩
  rintro w p hp hown rfl
  exact hmore (hs.held w p hp hown rfl)

end RecallsIn

namespace Invariant

variable {own : Prop} {u : UserId} {history : List AssignmentStore} {a : AssignmentStore}
  {d : Deployment Obj} {c : Command Obj} {name : String}

theorem fits_recallingOf (hkey : c.setsKey = false) (hc : u ∉ c.seeds)
    (hroles : ∀ s, c = .store s → s.changesRoles = false) :
    (recallingOf own u history a : Invariant Obj).Fits c := by
  refine fits_vouched (fun s hs => ⟨hroles s hs, ?_⟩) (fun name w hs => ?_)
    fun i holder w rows ttl hs => ?_
  · subst hs
    exact hkey
  · subst hs
    exact fun _ _ => .inr fun hw => absurd (List.mem_singleton.2 hw.symm) hc
  · subst hs
    exact fun hw => absurd (List.mem_singleton.2 hw.symm) hc

variable [DomainObject Obj]

theorem recallingOf_sound (ha : a ∈ history) :
    (recallingOf own u history a : Invariant Obj).Sound :=
  vouched_sound (fun hq _ => hq) fun hrows _ => ⟨a, ha, _, hrows, rfl⟩

theorem recallingOf_observes (ha : a ∈ history) {c : SessionCommand Obj}
    (hc : u ∉ (Command.session name c).seeds) :
    Command.Observes (RecallsIn own u history a) (.session name c) where
  care _ := ((recallingOf_sound ha).upkeep trivial).toCare
  unshare _ w _ := (recallingOf_sound ha).keeps_invalidateShared w
  guide _ _ subject := keeps_onAtlas ((recallingOf_sound ha).resolve subject trivial)
  put hp := (recallingOf_sound ha).keeps_put _ (fun hw => absurd (hw ▸ hp.mem_seeds) hc) _
  store _ hstore := nomatch hstore

/-- Whatever else is done, the tiers that fresh sessions see recall the user, and so does a session
that did. -/
theorem recallingOf_step (ha : a ∈ history) (h : (recallingOf False u history a).On d)
    (hkey : c.setsKey = false) (hc : u ∉ c.seeds) (name : String) :
    ∃ b, (recallingOf False u (b :: history) b).On (d.step c).2 ∧
      (d.Sees (RecallsIn True u history a) name →
        (d.step c).2.Sees (RecallsIn True u (b :: history) b) name) := by
  -- the tiers do not notice a change of roles, and all else leaves the assignments as they are
  by_cases hcases : ∃ s, c = .store s ∧ s.changesRoles = true
  · obtain ⟨s, rfl, hs⟩ := hcases
    obtain ⟨b, hstep, -⟩ := d.exists_reassigned hs
    rw [hstep]
    have hleft := (h.reassign b).recallOf b
    exact ⟨b, hleft, fun hsees => hsees.recallsIn hleft rfl (fun _ => rfl) (·.cons b)⟩
  · have hroles : ∀ s, c = .store s → s.changesRoles = false := fun s hs =>
      Bool.eq_false_iff.2 fun hchanges => hcases ⟨s, hs, hchanges⟩
    have hstep := (recallingOf_sound ha).on_step c (fits_recallingOf hkey hc hroles) h.ready
    have hleft := hstep.recallOf a
    refine ⟨a, hleft, fun hsees => ?_⟩
    have hgoes : (d.step c).2.Sees (RecallsIn True u history a) name := by
      refine hsees.step recallsIn_layers (fun hp => h.onScene hp held_empty)
        (fun hp => hstep.onScene hp held_empty) ?_
      rintro c' rfl
      exact recallingOf_observes ha hc
    exact hgoes.recallsIn hleft rfl (fun _ => rfl) (·.cons a)

end Invariant

namespace Operations

open Scene (Mirrors)

variable [DomainObject Obj] {v : Service Obj} {u : UserId} {s : Scene}

/-- Once a user has been dropped and warmed, the lower tiers hold of it what has been loaded. -/
theorem recallingOf_afterWarming (hmirrors : s.Mirrors v.cache)
    (hok : ((Cache.invalidateShared u).runFrom s).1.isOk = true) :
    ∃ a, (Invariant.recallingOf False u [a] a : Invariant Obj).OnScene (afterWarming v s u) := by
  have hlacks := (Cache.meets_invalidateShared u).of_isOk trivial hok
  have hleft := Cache.mirrors_invalidateShared u s hmirrors
  generalize hrun : (Cache.invalidateShared u).runFrom s = r at hok hlacks hleft
  obtain ⟨_ | _, t⟩ := r
  · cases hok
  · let I : Invariant Obj := .recallingOf False u [t.world.assignments] t.world.assignments
    have hupkeep : v.Upkeep I.OnScene :=
      (Invariant.recallingOf_sound (List.mem_singleton_self _)).upkeep trivial
    refine ⟨t.world.assignments, holds_afterWarming v u s hupkeep.toCare ?_⟩
    rw [warmUser, Act.runFrom_bind_ok hrun]
    have hchecked := hupkeep.parts.fresh (hupkeep.parts.check u warmupAbility .root)
    exact (hchecked.bind fun _ => Act.keeps_pure _) t (Invariant.onScene_of_lacks hleft hlacks)

theorem recallingOf_warmCache (hmirrors : s.Mirrors v.cache) {users : List UserId} {j : Nat}
    (hj : users[j]? = some u) (hok : ((Cache.invalidateShared u).runFrom
      ((warmEach v (users.take j)).runFrom s).2).1.isOk = true) :
    ∃ a, (Invariant.recallingOf False u [a] a : Invariant Obj).OnScene
      ((warmCache v users).runFrom s).2 := by
  have hbefore : Mirrors v.cache ((warmEach v (users.take j)).runFrom s).2 :=
    v.mirrors_upkeep.parts.warmEach (fun w _ => v.mirrors_upkeep.unshare w) s hmirrors
  obtain ⟨a, hwarm⟩ := recallingOf_afterWarming hbefore hok
  let I : Invariant Obj := .recallingOf False u [a] a
  have hupkeep : v.Upkeep I.OnScene :=
    (Invariant.recallingOf_sound (List.mem_singleton_self a)).upkeep trivial
  rw [runFrom_warmEach] at hwarm
  have hrest : I.OnScene ((warmEach v (users.drop (j + 1))).runFrom _).2 :=
    hupkeep.parts.warmEach (fun w _ => hupkeep.unshare w) _ hwarm
  have heach : I.OnScene ((warmEach v users).runFrom s).2 := by
    rw [runFrom_warmEach] at hrest ⊢
    rw [foldl_afterWarming_of_getElem? v u s hj]
    exact hrest
  refine ⟨a, Act.Keeps.left_bind (fun r => ?_) heach⟩
  exact (hupkeep.toCare.keeps_count _).bind fun _ => (hupkeep.toCare.keeps_log rfl).bind fun _ =>
    Act.keeps_pure _

end Operations

namespace Deployment

open Operations

theorem recallingOf_of_stored {d : Deployment Obj} {u : UserId} {history : List AssignmentStore}
    (hmirrors : d.Everywhere fun e => Scene.Mirrors e.service.cache) (hone : d.processCount = 1)
    {i : Nat} {p : Process Obj} (hp : d.process? i = some p)
    (hstored : d.world.keyValues.get (persistentKey u) = none) :
    (Invariant.recallingOf False u history d.world.assignments).On d :=
  Invariant.on_of_onScene hone hp
    (Invariant.onScene_of_lacks (hmirrors.each hp) (Scene.Mirrors.lacks (hmirrors.each hp) hstored))

variable [DomainObject Obj]

/-- The deployments that are reached from one with a past, each with the assignments that there
have been since, if no bytes are stored under a key as they are given and nothing is put into the
cache of the user that has not been loaded. Entries of the lower tiers vanish and requests are
refused at will. -/
inductive Since (u : UserId) (past : List AssignmentStore) (start : Deployment Obj) :
    List AssignmentStore → Deployment Obj → Prop
  | start : Since u past start past start
  | command {history : List AssignmentStore} {d : Deployment Obj} {c : Command Obj} :
    Since u past start history d → c.setsKey = false → u ∉ c.seeds →
      Since u past start ((d.step c).2.world.assignments :: history) (d.step c).2
  | evict {history : List AssignmentStore} {d : Deployment Obj} (i : Nat) (key : String) :
    Since u past start history d → Since u past start history (d.evict i key)
  | expire {history : List AssignmentStore} {d : Deployment Obj} (key : String) :
    Since u past start history d → Since u past start history (d.expire key)
  | disrupt {history : List AssignmentStore} {d : Deployment Obj} (x : Disruption) :
    Since u past start history d → Since u past start history (d.disrupt x)

variable {start d : Deployment Obj} {u : UserId} {past history : List AssignmentStore}
  {name : String}

/-- Every tier goes on to recall the user where it did, and so does a session. -/
theorem Since.recalls (h : start.Since u past history d) {a : AssignmentStore} (ha : a ∈ past)
    (hon : (Invariant.recallingOf False u past a).On start) (name : String) :
    ∃ b ∈ history, (Invariant.recallingOf False u history b).On d ∧
      (start.Sees (RecallsIn True u past a) name → d.Sees (RecallsIn True u history b) name) := by
  induction h with
  | start => exact ⟨a, ha, hon, id⟩
  | @command history d c _ hkey hc ih =>
    obtain ⟨b, hb, hon, hsees⟩ := ih
    obtain ⟨b', hleft, hgoes⟩ := Invariant.recallingOf_step hb hon hkey hc name
    have hsame : (d.step c).2.world.assignments = b' := (hleft.stock trivial).1
    rw [hsame]
    exact ⟨b', List.mem_cons_self, hleft, fun hstart => hgoes (hsees hstart)⟩
  | evict i key _ ih =>
    obtain ⟨b, hb, hon, hsees⟩ := ih
    have hleft := hon.ready.evict i key
    exact ⟨b, hb, hleft, fun hstart => (hsees hstart).recallsIn hleft
      (congrArg (·.get? name) (sessions_evict ..)) (engine_evict _ i key) id⟩
  | expire key _ ih =>
    obtain ⟨b, hb, hon, hsees⟩ := ih
    have hleft := hon.expire key
    exact ⟨b, hb, hleft, fun hstart => (hsees hstart).recallsIn hleft rfl (fun _ => rfl) id⟩
  | disrupt x _ ih =>
    obtain ⟨b, hb, hon, hsees⟩ := ih
    have hleft := hon.disrupt x
    exact ⟨b, hb, hleft, fun hstart => (hsees hstart).recallsIn hleft rfl (fun _ => rfl) id⟩

theorem Since.engine (h : start.Since u past history d) (i : Nat) :
    (d.process? i).map (·.engine) = (start.process? i).map (·.engine) := by
  induction h with
  | start => rfl
  | command _ _ _ ih => exact (engine_step ..).trans ih
  | evict j key _ ih => exact (engine_evict ..).trans ih
  | expire key _ ih => exact ih
  | disrupt x _ ih => exact ih

theorem recalls_of_snapshot {a : AssignmentStore} (ha : a ∈ history)
    (hsees : d.Sees (RecallsIn True u history a) name) {answer : Answer}
    (h : (d.step (.session name (.snapshot u))).1.1 = .ok answer) :
    ∃ q, answer = .snapshot q ∧ Recalls history u q := by
  have hyields (e : Engine Obj) : (e.service.snapshot u).Meets (RecallsIn True u history a e)
      (fun q _ => Recalls history u q) fun _ _ => True :=
    ((Invariant.recallingOf_sound ha).yields_snapshot e.service u).mono (fun _ h => h)
      (fun _ _ h => h.2 trivial rfl) fun _ _ _ => trivial
  obtain ⟨q, hq, hanswer⟩ := hsees.answer hyields h
  exact ⟨q, hanswer.symm, hq⟩

/-- A session that is opened over tiers that recall the user is told no other snapshot. -/
theorem recalls_of_open {a : AssignmentStore} (ha : a ∈ past)
    (hon : (Invariant.recallingOf False u past a).On d) {i : Nat} {p : Process Obj}
    (hp : d.process? i = some p) {d' : Deployment Obj}
    (hsince : (d.step (.openSession name i)).2.Since u past history d') {answer : Answer}
    (h : (d'.step (.session name (.snapshot u))).1.1 = .ok answer) :
    ∃ q, answer = .snapshot q ∧ Recalls history u q := by
  have hopened : (Invariant.recallingOf False u past a).On (d.step (.openSession name i)).2 :=
    (Invariant.recallingOf_sound ha).on_step (.openSession name i) trivial hon.ready
  have hsees : (d.step (.openSession name i)).2.Sees (RecallsIn True u past a) name :=
    .of_open recallsIn_layers (fun hp => hon.onScene hp Invariant.held_empty) hp
  obtain ⟨b, hb, -, hgoes⟩ := hsince.recalls ha hopened name
  exact recalls_of_snapshot hb (hgoes hsees) h

section Dropped

variable {c : Command Obj}

theorem Invalidates.throughService (h : d.Invalidates u c) : c.ThroughService := by
  cases h with
  | answered hdrop _ =>
    cases c with
    | cache i holder c =>
      cases c with
      | put v rows ttl => cases hdrop
      | _ => trivial
    | store s => cases hdrop
    | _ => trivial
  | batch | warm => trivial

/-- Whoever drops the user and however, nothing is left of it in the lower tiers but what has been
loaded meanwhile. -/
theorem recallingOf_of_invalidates (h : d.Invalidates u c)
    (hmirrors : d.Everywhere fun e => Scene.Mirrors e.service.cache) (hone : d.processCount = 1)
    {i : Nat} {p : Process Obj} (hp : d.process? i = some p) :
    (Invariant.recallingOf False u [(d.step c).2.world.assignments]
      (d.step c).2.world.assignments).On (d.step c).2 := by
  have hone' := (processCount_step d c).trans hone
  have hmirrors' := hmirrors.step mirrors_lasting (Command.upholds_mirrors h.throughService)
  have hengine := engine_step d c i
  rw [hp] at hengine
  obtain ⟨p', hp', -⟩ := Option.map_eq_some_iff.1 hengine
  cases h with
  | answered hdrop hok =>
    have hlacks := (meets_drops c).of_isOk trivial hok
    exact recallingOf_of_stored hmirrors' hone' hp' (hlacks u hdrop)
  -- the batch may have failed for others, so its answer tells nothing
  | @batch k j users hk hj hrefusal =>
    obtain ⟨q, hq⟩ := Option.isSome_iff_exists.1 hk
    obtain ⟨t, hdropped, hrun⟩ := invalidateBatch_dropped users (q.scene d.world .empty)
    have hstep := runFrom_runInProcess (t := fun _ => invalidateBatch users) hq
      (fun n => Answer.number (some n)) hrun
    have hleft : (d.step (.process k (.invalidateBatch users))).2 = d.settle k q t :=
      congrArg Prod.snd hstep
    have hstored : t.world.keyValues.get (persistentKey u) = none := by
      rw [KeyValueStore.get, hdropped.get?_keyValues,
        if_pos (show (u, none) ∈ deletions (q.scene d.world .empty).world.ahead users from
          mem_deletions.2 ⟨j, hj, hrefusal⟩)]
      rfl
    refine recallingOf_of_stored hmirrors' hone' hp' ?_
    rw [hleft]
    exact hstored
  | @warm k j q users hq hj hok =>
    obtain ⟨a, hscene⟩ := recallingOf_warmCache (hmirrors.each hq) hj hok
    generalize hrun : (warmCache q.engine.service users).runFrom (q.scene d.world .empty) = run
      at hscene
    have hstep := runFrom_runInProcess (t := fun e => warmCache e.service users) hq
      Answer.warmed hrun
    have hleft : (d.step (.process k (.warm users))).2 = d.settle k q run.2 :=
      congrArg Prod.snd hstep
    rw [hleft] at hone' ⊢
    have hon : (Invariant.recallingOf False u [a] a).On (d.settle k q run.2) :=
      Invariant.on_of_onScene hone' (process?_settle_self hq run.2)
        ⟨hscene.atlas, hscene.shared, Invariant.held_empty⟩
    have hsame : (d.settle k q run.2).world.assignments = a := (hon.stock trivial).1
    rwa [hsame]

end Dropped

end Deployment

end Clearance
