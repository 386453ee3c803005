import Clearance.Proofs.Deployment.Repeatable
import Clearance.Proofs.Resolver.Newcomers
import Clearance.Proofs.Resolver.Outlook
import Clearance.Proofs.Session.Steps

/-! What a check may touch. Whatever it answers and however it fails, a check changes nothing that
belongs to other users, to other sessions or to the recorded counters. If a policy decides, it
changes nothing at all; if the user turns out to be a super-admin, no context is looked for. -/
namespace Clearance

namespace Scene

/-- All is as it was but for the contexts and for what is cached of the user. -/
structure Spares (u : UserId) (s t : Scene) : Prop where
  assignments : t.world.assignments = s.world.assignments
  keyValues : ∀ key, key ≠ persistentKey u →
    t.world.keyValues.entries.get? key = s.world.keyValues.entries.get? key
  shared : ∀ key, key ≠ sharedKey u → t.shared.get? key = s.shared.get? key
  held : ∀ w, w ≠ u → t.held.get? w = s.held.get? w

namespace Spares

variable {ε α : Type} {u : UserId} {s : Scene}

theorem refl (u : UserId) (s : Scene) : Spares u s s :=
  ⟨rfl, fun _ _ => rfl, fun _ _ => rfl, fun _ _ => rfl⟩

theorem lacks {t : Scene} {w : UserId} (h : Spares u s t) (hw : w ≠ u) (hs : s.Lacks w) :
    t.Lacks w := by
  constructor
  · rw [h.shared _ fun hkey => hw (sharedKey_injective hkey)]
    exact hs.1
  · rw [KeyValueStore.get, h.keyValues _ fun hkey => hw (persistentKey_injective hkey)]
    exact hs.2

theorem keeps_hold (p : Snapshot) : (hold u p : Act Scene ε Unit).Keeps (Spares u s) :=
  Act.keeps_modify fun _ h =>
    { h with held := fun w hw => (SortedMap.get?_insert_of_ne _ _ hw).trans (h.held w hw) }

theorem keeps_share (c : CacheConfig) (p : Snapshot) :
    (Cache.share c u p : Act Scene ε Unit).Keeps (Spares u s) := by
  refine Act.keeps_modify fun t h => ?_
  split
  · exact { h with
      shared := fun key hkey => (SortedMap.get?_insert_of_ne _ _ hkey).trans (h.shared key hkey) }
  · exact h

theorem keeps_ask {c : Call} {answer : World → Except StorageError α × World}
    (h : ∀ t : Scene, Spares u s t → Spares u s { t with world := (answer t.world).2 }) :
    (ask (World.request c answer)).Keeps (Spares u s) := by
  intro t ht
  rw [runFrom_ask, World.runFrom_request]
  cases t.world.disruption.refusal c (t.world.callCount c) with
  | some e => exact { ht with }
  | none => exact h { t with world := t.world.noting c } { ht with }

theorem keeps_setKey (value : ByteArray) (ttl : Nat) :
    (ask (World.setKey (persistentKey u) value ttl)).Keeps (Spares u s) := by
  refine keeps_ask fun t h => ?_
  unfold KeyValueStore.set
  by_cases hlimit : ttl < KeyValueStore.ttlLimit
  · rw [if_pos hlimit]
    exact { h with keyValues := fun key hkey =>
      (SortedMap.get?_insert_of_ne _ _ hkey).trans (h.keyValues key hkey) }
  · rw [if_neg hlimit]
    exact h

theorem keeps_deleteKey : (ask (World.deleteKey (persistentKey u))).Keeps (Spares u s) :=
  keeps_ask fun _ h => { h with keyValues := fun key hkey =>
    (SortedMap.get?_erase_of_ne _ hkey).trans (h.keyValues key hkey) }

theorem steps (c : CacheConfig) (u : UserId) (s : Scene) :
    Cache.Steps c u fun t => t.Keeps (Spares u s) where
  ofExcept := Act.keeps_ofExcept
  bind := Act.Keeps.bind
  heldOf _ h := h
  sharedOf _ h := h
  hold := keeps_hold
  share := keeps_share c
  getKey := keeps_ask fun _ h => h
  setKey := keeps_setKey
  deleteKey := keeps_deleteKey
  loadAssignments := keeps_ask fun _ h => h
  counters _ := Act.keeps_modify fun _ h => { h with }
  count _ := Act.keeps_modify fun _ h => { h with }
  log _ := Act.keeps_modify fun _ h => { h with }

theorem keeps_resolve {Obj : Type} [DomainObject Obj] (v : Service Obj) (subject : Subject Obj) :
    (v.resolve subject).Keeps (Spares u s) := by
  intro t h
  obtain ⟨hassignments, hkeyValues⟩ :=
    Prod.mk.inj (Resolver.leaves_resolve v.resolver subject t.toAtlas)
  refine { h with assignments := hassignments.trans h.assignments, keyValues := ?_ }
  intro key hkey
  exact (congrArg (·.entries.get? key) hkeyValues).trans (h.keyValues key hkey)

end Spares

end Scene

namespace Service

open Scene

variable {Obj : Type} [DomainObject Obj] {v : Service Obj} {u : UserId} {ability : String}
  {subject : Subject Obj} {s t : Scene}

theorem spares_check (v : Service Obj) (u : UserId) (ability : String) (subject : Subject Obj)
    (s : Scene) : Spares u s ((v.check u ability subject).runFrom s).2 :=
  (Spares.steps v.cache u s).stages.check (Spares.keeps_resolve v subject) ability s (.refl u s)

theorem contexts_of_snapshot {r : Except Error Snapshot} (h : (v.snapshot u).runFrom s = (r, t)) :
    t.world.contexts = s.world.contexts := by
  have hlook := v.leaves_snapshot u s
  rw [h] at hlook
  exact congrArg (fun o => o.1.contexts) hlook

/-- A check creates contexts for none but those whom its subject concerns. -/
theorem admits_check (v : Service Obj) (u : UserId) (ability : String) (subject : Subject Obj)
    (s : Scene) : Atlas.Admits s.world.contexts (v.resolver.Concerns subject)
      ((v.check u ability subject).runFrom s).2.toAtlas := by
  let J (t : Scene) : Prop :=
    Atlas.Admits s.world.contexts (v.resolver.Concerns subject) t.toAtlas
  have hsnapshot : (v.snapshot u).Keeps J := by
    rintro t ⟨made, hmade⟩
    have hcontexts := contexts_of_snapshot (Prod.eta ((v.snapshot u).runFrom t)).symm
    exact ⟨made, hcontexts.symm ▸ hmade⟩
  have hstages : Stages v u fun t => t.Keeps J :=
    ⟨Act.keeps_ofExcept, Act.Keeps.bind, hsnapshot, fun _ => Act.keeps_modify fun _ h => h⟩
  have hresolve : (v.resolve subject).Keeps J := fun t h => v.resolver.admits_resolve subject _ h
  exact hstages.check hresolve ability s ⟨[], .refl _⟩

/-- Where a policy decides, nothing is done but to log the decision. -/
theorem check_of_policy {r : Response} (h : v.policies.evaluate u ability subject = some r)
    (s : Scene) : ∃ events, ((v.check u ability subject).runFrom s).2 =
      { s with world := { s.world with events } } := by
  unfold check
  rw [h]
  cases r <;> exact ⟨_, rfl⟩

variable (hpolicy : v.policies.evaluate u ability subject = none)

include hpolicy

/-- Without a snapshot nothing is asked about contexts. -/
theorem check_of_failure {e : Error} (h : (v.snapshot u).runFrom s = (.error e, t)) :
    (v.check u ability subject).runFrom s = (.error e, t) := by
  unfold check
  rw [hpolicy]
  exact Act.runFrom_bind_error h _

/-- A super-admin may do anything, whatever would become of the subject. -/
theorem check_of_superAdmin {p : Snapshot} (h : (v.snapshot u).runFrom s = (.ok p, t))
    (hp : p.isSuperAdmin = true) : (v.check u ability subject).runFrom s =
      (.ok true, { t with world := t.world.log (.decided .superAdmin u ability) }) := by
  unfold check
  rw [hpolicy]
  refine (Act.runFrom_bind_ok h _).trans ?_
  rw [if_pos hp]
  rfl

end Service

namespace Deployment

variable {Obj : Type} {d : Deployment Obj} {name : String} {x : Session} {p : Process Obj}
  {u : UserId}

/-- What is not of the user `u` is as it was, and so is what is not of the session `x`. The contexts
are left out. -/
structure Untouched (u : UserId) (name : String) (x : Session) (d d' : Deployment Obj) : Prop where
  assignments : d'.world.assignments = d.world.assignments
  keyValues : ∀ key, key ≠ persistentKey u →
    d'.world.keyValues.entries.get? key = d.world.keyValues.entries.get? key
  record : d'.world.keyValues.entries.get? metricsKey = d.world.keyValues.entries.get? metricsKey
  shared : ∀ i key, key ≠ sharedKey u →
    (d'.process? i).bind (·.shared.get? key) = (d.process? i).bind (·.shared.get? key)
  processes : ∀ i, i ≠ x.process → d'.process? i = d.process? i
  sessions : ∀ n, n ≠ name → d'.sessions.get? n = d.sessions.get? n
  held : ∃ x', d'.sessions.get? name = some x' ∧ x'.process = x.process ∧
    ∀ w, w ≠ u → x'.held.get? w = x.held.get? w
  holders : d'.holders = d.holders
  guides : d'.guides = d.guides
  saved : d'.saved = d.saved

section Leave

def leave (d : Deployment Obj) (name : String) (x : Session) (p : Process Obj) (t : Scene) :
    Deployment Obj :=
  { d with
    world := t.world
    processes := d.processes.set x.process (some (p.after t))
    sessions := d.sessions.insert name ⟨x.process, t.held⟩ }

variable (hx : d.sessions.get? name = some x) (hp : d.process? x.process = some p)

include hp

theorem process?_leave (t : Scene) (i : Nat) : (d.leave name x p t).process? i =
    if i = x.process then some (p.after t) else d.process? i := process?_settle hp t i

theorem untouched_leave {t : Scene} (h : Scene.Spares u (p.scene d.world x.held) t) :
    Untouched u name x d (d.leave name x p t) where
  assignments := h.assignments
  keyValues := h.keyValues
  record := h.keyValues metricsKey (persistentKey_ne_metricsKey u).symm
  shared i key hkey := by
    rw [process?_leave hp]
    split
    · next hi =>
      rw [hi, hp]
      exact h.shared key hkey
    · rfl
  processes i hi := by rw [process?_leave hp, if_neg hi]
  sessions n hn := SortedMap.get?_insert_of_ne _ _ hn
  held := ⟨_, SortedMap.get?_insert_self .., rfl, h.held⟩
  holders := rfl
  guides := rfl
  saved := rfl

include hx

theorem leave_of_logged (events : Array Event) :
    d.leave name x p { p.scene d.world x.held with world := { d.world with events } } =
      { d with world := { d.world with events } } := by
  have hprocesses : d.processes.set x.process (some p) = d.processes := by
    refine List.ext_getElem? fun i => ?_
    have hi' : d.processes[x.process]? = some (some p) := Option.join_eq_some_iff.1 hp
    obtain ⟨hlt, -⟩ := List.getElem?_eq_some_iff.1 hi'
    by_cases hi : x.process = i
    · rw [← hi, List.getElem?_set_self hlt, hi']
    · rw [List.getElem?_set_ne hi]
  have hsessions : d.sessions.insert name x = d.sessions := by
    refine SortedMap.ext_get? fun n => ?_
    by_cases hn : n = name
    · rw [hn, SortedMap.get?_insert_self, hx]
    · exact SortedMap.get?_insert_of_ne _ _ hn
  show { d with
    world := { d.world with events }
    processes := d.processes.set x.process (some p)
    sessions := d.sessions.insert name x } = _
  rw [hprocesses, hsessions]

variable [DomainObject Obj] {ref : SubjectRef Obj} {subject : Subject Obj}

/-- A check by a session is a check on its scene. -/
theorem step_check (hsubject : ref.subject d = .ok subject) (u : UserId) (ability : String) :
    let run := (p.engine.service.check u ability subject).runFrom (p.scene d.world x.held)
    let step := d.step (.session name (.check u ability ref))
    step.1.1 = (run.1.mapError .engine).map .flag ∧ step.2 = d.leave name x p run.2 := by
  intro run step
  have hstep : (perform (.session name (.check u ability ref))).runFrom d =
      ((run.1.mapError .engine).map .flag, d.leave name x p run.2) := by
    refine (Act.runFrom_bind_ok (runFrom_find hsubject) _).trans ?_
    rw [runInSession, Act.runFrom_bind_ok (Act.runFrom_get d), hx]
    simp only [runIn, Act.runFrom_ofFun, hp, Act.runFrom_map, Act.runFrom_mapError]
    rfl
  have hboth : step.1.1 = ((perform (.session name (.check u ability ref))).runFrom d).1 ∧
      step.2 = ((perform (.session name (.check u ability ref))).runFrom d).2 := ⟨rfl, rfl⟩
  rw [hstep] at hboth
  exact hboth

end Leave

variable [DomainObject Obj]

/-- A check leaves alone whatever is of other users and of other sessions, the roles and the record
of the counters. It replaces no context but one that is stored under an id that it hands out, and
creates contexts for new owners only: for the object in question and those declared above it. If a
policy decides, nothing is done but to log the decision; if there is no snapshot, or one of a
super-admin, no contexts are created, and a super-admin is allowed anything. -/
theorem check_touches (hx : d.sessions.get? name = some x) (hp : d.process? x.process = some p)
    {ref : SubjectRef Obj} {subject : Subject Obj} (hsubject : ref.subject d = .ok subject)
    (u : UserId) (ability : String) :
    let v := p.engine.service
    let s := p.scene d.world x.held
    let step := d.step (.session name (.check u ability ref))
    let answer := step.1.1
    let d' := step.2
    Untouched u name x d d' ∧
    (∃ made, d.world.contexts.Admits (v.resolver.Concerns subject) made d'.world.contexts ∧
      ((∀ id ∈ Id.row d.world.contexts.nextId made.length, d.world.contexts.get id = none) →
        d.world.contexts.Extends d'.world.contexts)) ∧
    (∀ r, v.policies.evaluate u ability subject = some r →
      ∃ events, d' = { d with world := { d.world with events } }) ∧
    (v.policies.evaluate u ability subject = none →
      (∀ e t, (v.snapshot u).runFrom s = (.error e, t) →
        answer = .error (.engine e) ∧ d'.world.contexts = d.world.contexts) ∧
      ∀ q t g, (v.snapshot u).runFrom s = (.ok q, t) → q.at? rootId = some g →
        g.hasRole Snapshot.superAdmin = true →
        answer = .ok (.flag true) ∧ d'.world.contexts = d.world.contexts) := by
  intro v s step answer d'
  obtain ⟨hanswer, hleft⟩ := step_check hx hp hsubject u ability
  replace hanswer : answer = _ := hanswer
  replace hleft : d' = _ := hleft
  have hcontexts : d'.world.contexts =
      ((v.check u ability subject).runFrom s).2.world.contexts := by
    rw [hleft]
    rfl
  refine ⟨?_, ?_, ?_, fun hpolicy => ⟨?_, ?_⟩⟩
  · rw [hleft]
    exact untouched_leave hp (v.spares_check u ability subject s)
  · obtain ⟨made, hmade⟩ := v.admits_check u ability subject s
    rw [hcontexts]
    exact ⟨made, hmade, hmade.keeps⟩
  · intro r hr
    obtain ⟨events, hevents⟩ := Service.check_of_policy hr s
    refine ⟨events, ?_⟩
    rw [hleft, hevents]
    exact leave_of_logged hx hp events
  · intro e t hsnapshot
    have hcheck := Service.check_of_failure hpolicy hsnapshot
    rw [hanswer, hcontexts, hcheck]
    exact ⟨rfl, Service.contexts_of_snapshot hsnapshot⟩
  · intro q t g hsnapshot hg hrole
    have hsuper : q.isSuperAdmin = true := by
      rw [Snapshot.isSuperAdmin, hg]
      exact hrole
    have hcheck := Service.check_of_superAdmin hpolicy hsnapshot hsuper
    rw [hanswer, hcontexts, hcheck]
    exact ⟨rfl, Service.contexts_of_snapshot hsnapshot⟩

/-- A pen is on a shelf, and parents are not followed, so that it cannot be resolved. A super-admin
is allowed to use it, and for anybody else the check fails; nobody else is touched. -/
theorem check_touches_pen :
    let pen : Strand := ⟨⟨"pen", 1⟩, [⟨"shelf", 1⟩]⟩
    let v : Service Strand := ⟨⟨.ofList ["pen"], 0⟩, .empty, {}⟩
    let assignments : AssignmentStore :=
      ⟨.insert .empty 1 ⟨Snapshot.superAdmin, .empty⟩, .insert .empty 7 [⟨1, rootId⟩]⟩
    let x : Session := ⟨0, .empty⟩
    let d : Deployment Strand := ⟨{ World.new with assignments }, [some (.start (.withParts v {}))],
      .insert .empty "a" x, .empty, .empty, .empty⟩
    let step := d.step (.session "a" (.check 7 "edit" (.object pen)))
    let other := d.step (.session "a" (.check 8 "edit" (.object pen)))
    step.1.1 = .ok (.flag true) ∧ step.2.world.contexts = d.world.contexts ∧
      Untouched 7 "a" x d step.2 ∧ other.1.1.isOk = false ∧ Untouched 8 "a" x d other.2 := by
  intro pen v assignments x d step other
  let p : Process Strand := .start (.withParts v {})
  let q : Snapshot := Snapshot.empty.grant rootId 1 Snapshot.superAdmin []
  have hx : d.sessions.get? "a" = some x := rfl
  have hp : d.process? x.process = some p := rfl
  have hsubject : (SubjectRef.object pen).subject d = .ok (.object pen) := rfl
  have hsnapshot : (v.snapshot 7).runFrom (p.scene d.world x.held) = (.ok q, _) :=
    Prod.ext (by decide +kernel) rfl
  obtain ⟨huntouched, -, -, hchecked⟩ := check_touches hx hp hsubject 7 "edit"
  obtain ⟨hother, -⟩ := check_touches hx hp hsubject 8 "edit"
  obtain ⟨hanswer, hcontexts⟩ := (hchecked rfl).2 q _ _ hsnapshot rfl (by decide +kernel)
  exact ⟨hanswer, hcontexts, huntouched, by decide +kernel, hother⟩

/-- Behind the greatest id comes the least one. Where a record has been seeded under the least id
and the last id but one has been given out, a check creates contexts for a shelf and for the pen on
it, and that of the pen takes the place of the record. -/
theorem seed_replaced_by_check : ∃ (v : Service Strand) (pen : Strand) (least r : Record) (s : Scene),
    let run := (v.check 7 "edit" (.object pen)).runFrom s
    s.world.disruption = .none ∧ s.world.contexts.get least.id = some least ∧
      run.1 = .ok false ∧ run.2.world.contexts.get least.id = some r ∧
      least.owner? = some ⟨"desk", 2⟩ ∧ r.owner? = some ⟨"pen", 1⟩ := by
  let last : Record := ⟨9223372036854775806, some 1, "desk", some 1, 1, "1/9223372036854775806/"⟩
  let least : Record :=
    ⟨-9223372036854775808, some 1, "desk", some 2, 1, "1/-9223372036854775808/"⟩
  let pen : Strand := ⟨⟨"pen", 1⟩, [⟨"shelf", 1⟩]⟩
  let r : Record := ⟨-9223372036854775808, some 9223372036854775807, "pen", some 1, 2,
    "1/9223372036854775807/-9223372036854775808/"⟩
  let v : Service Strand := ⟨⟨.ofList ["pen"], 25⟩, .empty, {}⟩
  let s : Scene := ⟨⟨.ofContexts ([last, least].foldl ContextStore.insert .new), none⟩, .empty, {},
    .empty⟩
  exact ⟨v, pen, least, r, s, rfl, by decide +kernel, by decide +kernel, by decide +kernel, rfl, rfl⟩

end Deployment

end Clearance
