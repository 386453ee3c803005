import Clearance.Proofs.Operations.Dropping
import Clearance.Proofs.Session.Lookup

/-! Warming many users. Whatever was cached of a user that has been warmed, the lower tiers then hold
what would be loaded of it, and what is done for others afterwards does not change that. -/
namespace Clearance

namespace Supplies

variable {c : CacheConfig} {u : UserId} {p : Snapshot} {x : Supplies}

theorem keyValues_share : (x.share c u p).keyValues = x.keyValues := by
  unfold share
  split <;> rfl

theorem get?_share : (x.share c u p).shared.get? (sharedKey u) =
    if c.sharedKeeps then some p else x.shared.get? (sharedKey u) := by
  unfold share
  split
  · exact SortedMap.get?_insert_self ..
  · rfl

end Supplies

namespace Scene

structure Warm (c : CacheConfig) (u : UserId) (p : Snapshot) (s : Scene) : Prop where
  stored : s.world.keyValues.get (persistentKey u) = some p.toBytes
  shared : s.shared.get? (sharedKey u) = if c.sharedKeeps then some p else none

/-- The lower tiers hold the snapshot of what these assignments come to for the user. -/
def WarmFrom (c : CacheConfig) (u : UserId) (a : AssignmentStore) (s : Scene) : Prop :=
  ∃ rows, a.load u = .ok rows ∧ s.Warm c u (.ofRows rows)

variable {c : CacheConfig} {u : UserId} {p : Snapshot} {s t : Scene}

theorem warm_of_put {x : Supplies} (httl : 0 < c.persistentTtl)
    (hshared : x.shared.get? (sharedKey u) = none) (hput : x.put c u p = (.ok (), s.supplies)) :
    s.Warm c u p := by
  unfold Supplies.put KeyValueStore.set at hput
  by_cases hlimit : c.persistentTtl < KeyValueStore.ttlLimit
  · rw [if_pos hlimit] at hput
    have hleft := (Prod.mk.inj hput).2
    have hkeyValues : s.world.keyValues = _ := congrArg Supplies.keyValues hleft.symm
    have hnow : s.shared = _ := congrArg Supplies.shared hleft.symm
    constructor
    · rw [hkeyValues, Supplies.hold, Supplies.keyValues_share]
      exact KeyValueStore.get_insert_self _ _ _ httl
    · rw [hnow, Supplies.hold, Supplies.get?_share, hshared]
  · rw [if_neg hlimit] at hput
    cases hput

/-- What is done for others leaves a user warm. -/
theorem Warm.about {others : List UserId} (h : s.Warm c u p) (habout : About others s t)
    (hu : u ∉ others) : t.Warm c u p where
  stored := by
    have hkey : ∀ v ∈ others, persistentKey u ≠ persistentKey v := fun v hv he =>
      hu (persistentKey_injective he ▸ hv)
    rw [KeyValueStore.get, habout.keyValues _ hkey]
    exact h.stored
  shared := by
    have hkey : ∀ v ∈ others, sharedKey u ≠ sharedKey v := fun v hv he =>
      hu (sharedKey_injective he ▸ hv)
    rw [habout.shared _ hkey]
    exact h.shared

theorem WarmFrom.about {a : AssignmentStore} {others : List UserId} (h : s.WarmFrom c u a)
    (habout : About others s t) (hu : u ∉ others) : t.WarmFrom c u a := by
  obtain ⟨rows, hrows, hwarm⟩ := h
  exact ⟨rows, hrows, hwarm.about habout hu⟩

theorem WarmFrom.congr {a : AssignmentStore} (h : s.WarmFrom c u a)
    (hkeyValues : t.world.keyValues = s.world.keyValues) (hshared : t.shared = s.shared) :
    t.WarmFrom c u a := by
  obtain ⟨rows, hrows, hwarm⟩ := h
  exact ⟨rows, hrows, hkeyValues ▸ hwarm.stored, hshared ▸ hwarm.shared⟩

theorem Warm.lookUp (h : s.Warm c u p) (hheld : s.held.get? u = none) :
    (s.supplies.lookUp c u).1.map (·.1) = some p := by
  have hshared : s.supplies.shared.get? (sharedKey u) = if c.sharedKeeps then some p else none :=
    h.shared
  unfold Supplies.lookUp
  rw [show s.supplies.held.get? u = none from hheld, hshared]
  by_cases hkeeps : c.sharedKeeps = true
  · rw [if_pos hkeeps]
    rfl
  · rw [if_neg hkeeps]
    unfold Supplies.lookUpPersistent
    simp only [show s.supplies.keyValues.get (persistentKey u) = some p.toBytes from h.stored,
      p.ofBytes?_toBytes]
    rfl

end Scene

namespace Service

variable {Obj : Type} (v : Service Obj) {u : UserId} {p : Snapshot} {s t : Scene}

/-- Where nothing is cached of a user, the user is warm once a session has seen a snapshot of it. -/
theorem meets_snapshot_of_lacks (httl : 0 < v.cache.persistentTtl) (u : UserId)
    (a : AssignmentStore) : (v.snapshot u).Meets
      (fun s => s.held.get? u = none ∧ s.Lacks u ∧ s.world.assignments = a)
      (fun _ t => t.WarmFrom v.cache u a) fun _ _ => True := by
  rintro s ⟨hheld, hlacks, rfl⟩
  have hlook := Supplies.lookUp_of_none (x := s.supplies) v.cache hheld hlacks.1 hlacks.2
  have hcases := v.snapshot_cases u s
  dsimp only at hcases
  generalize (v.snapshot u).runFrom s = run at hcases
  match run with
  | (.error _, _) => trivial
  | (.ok p, t) =>
    obtain ⟨_, _, -, -, hfound⟩ | ⟨y, -, hmissed, hload⟩ | ⟨e, -, he, -⟩ := hcases
    · rw [hlook] at hfound
      cases hfound
    · rw [hlook] at hmissed
      cases hmissed
      obtain ⟨e, he, -⟩ | ⟨rows, hrows, -, hput⟩ := hload
      · cases he
      · exact ⟨rows, hrows, Scene.warm_of_put httl hlacks.1 hput⟩
    · cases he

/-- A session that does not hold a warm user sees the snapshot without loading anything, unless it
has to read the stored one and may not. -/
theorem snapshot_of_warm (hwarm : s.Warm v.cache u p) (hheld : s.held.get? u = none) :
    let run := (v.snapshot u).runFrom s
    run.2.world.callCount .loadAssignments = s.world.callCount .loadAssignments ∧
    (run.1 = .ok p ∨ v.cache.sharedKeeps = false ∧
      ∃ e, s.world.ahead.refusal .getKey 0 = some e ∧ run.1 = .error (.storage e)) := by
  intro run
  have hlook := hwarm.lookUp hheld
  obtain ⟨q, tier, -, hq, hfound⟩ | ⟨y, -, hmissed, -⟩ | ⟨e, -, he, hrefuses, hsupplies⟩ :=
    v.snapshot_cases u s
  · have hloads : (s.supplies.lookUp v.cache u).2.loads = s.supplies.loads := Supplies.loads_lookUp
    rw [hfound] at hlook hloads
    cases hlook
    exact ⟨hloads, .inl hq⟩
  · rw [hmissed] at hlook
    cases hlook
  · refine ⟨congrArg Supplies.loads hsupplies, .inr ⟨?_, ?_⟩⟩
    · by_contra hkeeps
      have hshared := hwarm.shared
      rw [if_pos (eq_true_of_ne_false hkeeps), hrefuses.unshared] at hshared
      cases hshared
    · obtain ⟨e', rfl, hrefusal⟩ | ⟨bytes, hbytes, hdecode⟩ := hrefuses.reason
      · exact ⟨e', hrefusal, he⟩
      · rw [hwarm.stored] at hbytes
        cases hbytes
        rw [p.ofBytes?_toBytes] at hdecode
        cases hdecode

end Service

namespace Operations

open Scene

variable {Obj : Type} [DomainObject Obj] (v : Service Obj) {u : UserId} {s t : Scene}

theorem about_check (u : UserId) (ability : String) (subject : Subject Obj) (s : Scene) :
    About [u] s ((Service.inFreshSession (v.check u ability subject)).runFrom s).2 := by
  have hspares := v.spares_check u ability subject { s with held := .empty }
  exact ⟨hspares.assignments, fun key hkey => hspares.keyValues key (hkey u (by simp)),
    fun key hkey => hspares.shared key (hkey u (by simp)), rfl⟩

theorem about_invalidateShared (u : UserId) (s : Scene) :
    About [u] s ((Cache.invalidateShared u).runFrom s).2 := by
  obtain ⟨t, hdropped, -, hrun⟩ := invalidateShared_dropped u s
  rw [hrun]
  exact hdropped.about

theorem about_warmUser (u : UserId) (s : Scene) : About [u] s ((warmUser v u).runFrom s).2 := by
  refine Act.Keeps.left_bind (fun _ => ?_) (about_invalidateShared u s)
  refine Act.Keeps.bind (fun r h => ?_) fun _ => Act.keeps_pure _
  exact h.trans (about_check v u warmupAbility .root r)

/-- No policy is about the root, so a check of it looks for a snapshot. -/
theorem meets_check_root (httl : 0 < v.cache.persistentTtl) (u : UserId) (ability : String)
    (a : AssignmentStore) : (v.check u ability .root).Meets
      (fun s => s.held.get? u = none ∧ s.Lacks u ∧ s.world.assignments = a)
      (fun _ t => t.WarmFrom v.cache u a) fun _ _ => True := by
  have hlog (e : Event) : (log e : Act Scene Error Unit).Keeps (WarmFrom v.cache u a) :=
    fun _ h => h.congr rfl rfl
  have hresolve : (v.resolve .root).Keeps (WarmFrom v.cache u a) := fun s h =>
    h.congr (Prod.mk.inj (Resolver.leaves_resolve v.resolver (.root : Subject Obj) s.toAtlas)).2 rfl
  refine Act.Meets.bind (v.meets_snapshot_of_lacks httl u a) fun p => ?_
  refine Act.Meets.mono (Act.Keeps.meets ?_) (fun _ h => h) (fun _ _ h => h) fun _ _ _ => trivial
  split
  · exact (hlog _).bind fun _ => Act.keeps_pure _
  · exact hresolve.bind fun _ => (hlog _).bind fun _ => Act.keeps_pure _

theorem meets_warmUser (httl : 0 < v.cache.persistentTtl) (u : UserId) (a : AssignmentStore) :
    (warmUser v u).Meets (fun s => s.world.assignments = a)
      (fun _ t => t.WarmFrom v.cache u a) fun _ _ => True := by
  have hdrop : (Cache.invalidateShared u).Meets (fun s => s.world.assignments = a)
      (fun _ s => s.Lacks u ∧ s.world.assignments = a) fun _ _ => True :=
    ((Cache.meets_invalidateShared u).and_keeps fun s hs =>
      (about_invalidateShared u s).assignments.trans hs).mono (fun _ h => ⟨trivial, h⟩)
        (fun _ _ h => h) fun _ _ _ => trivial
  have hchecked : (Service.inFreshSession (v.check u warmupAbility .root)).Meets
      (fun s => s.Lacks u ∧ s.world.assignments = a) (fun _ t => t.WarmFrom v.cache u a)
      fun _ _ => True :=
    Service.meets_inFreshSession (meets_check_root v httl u warmupAbility a)
      (fun s h => ⟨rfl, h.1, h.2⟩) (fun _ _ _ h => h.congr rfl rfl) fun _ _ _ _ => trivial
  exact hdrop.bind fun _ => hchecked.bind fun _ => Act.meets_pure fun _ h => h

/-- The scene once a user has been warmed, or once its failure has been told. -/
def afterWarming (v : Service Obj) (s : Scene) (u : UserId) : Scene :=
  match (warmUser v u).runFrom s with
  | (.ok (), t) => t
  | (.error e, t) => { t with world :=
      (t.world.count fun m => { m with warmFailures := m.warmFailures + 1 }).log (.warmFailed u e) }

/-- What becomes of each user when they are warmed one after the other. -/
def warmings (v : Service Obj) (users : List UserId) (s : Scene) : List (Except Error Unit) :=
  users.mapIdx fun k u => ((warmUser v u).runFrom ((users.take k).foldl (afterWarming v) s)).1

variable (u s) (users : List UserId)

theorem warmings_cons : warmings v (u :: users) s =
    ((warmUser v u).runFrom s).1 :: warmings v users (afterWarming v s u) := List.mapIdx_cons

theorem about_afterWarming : About [u] s (afterWarming v s u) := by
  have habout := about_warmUser v u s
  unfold afterWarming
  generalize (warmUser v u).runFrom s = run at habout
  match run, habout with
  | (.ok (), _), habout => exact habout
  | (.error _, _), habout => exact { habout with }

theorem about_foldl_afterWarming : About users s (users.foldl (afterWarming v) s) := by
  induction users generalizing s with
  | nil => exact .refl [] s
  | cons u users ih =>
    have hfirst : About (u :: users) s (afterWarming v s u) :=
      (about_afterWarming v u s).mono (by simp)
    exact hfirst.trans ((ih _).mono fun _ => List.mem_cons_of_mem u)

theorem holds_afterWarming {J : Scene → Prop} (hJ : v.Care J) (h : J ((warmUser v u).runFrom s).2) :
    J (afterWarming v s u) := by
  unfold afterWarming
  generalize (warmUser v u).runFrom s = run at h
  match run, h with
  | (.ok (), _), h => exact h
  | (.error _, _), h => exact hJ.log rfl (hJ.count _ h)

/-- Everyone is attempted, and every attempt is counted as what has become of it. -/
theorem runFrom_warmEach : (warmEach v users).runFrom s =
    (.ok ((warmings v users s).countP (·.isOk), (warmings v users s).countP (!·.isOk)),
      users.foldl (afterWarming v) s) := by
  induction users generalizing s with
  | nil => rfl
  | cons u users ih =>
    have hattempt : ((warmUser v u).attempt : Act Scene Error _).runFrom s =
      (.ok ((warmUser v u).runFrom s).1, ((warmUser v u).runFrom s).2) := rfl
    have hrest := ih (afterWarming v s u)
    rw [warmings_cons, List.foldl_cons]
    unfold afterWarming at hrest ⊢
    generalize (warmUser v u).runFrom s = run at hattempt hrest ⊢
    match run with
    | (.ok (), t) =>
      refine (Act.runFrom_bind_ok hattempt _).trans ?_
      refine (Act.runFrom_bind_ok hrest _).trans ?_
      rw [List.countP_cons_of_pos rfl, List.countP_cons_of_neg Bool.false_ne_true]
      rfl
    | (.error e, t) =>
      refine (Act.runFrom_bind_ok hattempt _).trans ?_
      refine (Act.runFrom_bind_ok rfl _).trans ?_
      refine (Act.runFrom_bind_ok rfl _).trans ?_
      refine (Act.runFrom_bind_ok hrest _).trans ?_
      rw [List.countP_cons_of_neg Bool.false_ne_true, List.countP_cons_of_pos rfl]
      rfl

variable {users} {k : Nat}

/-- Who is at one place on the list is warmed after those before it and before those behind it. -/
theorem foldl_afterWarming_of_getElem? (hk : users[k]? = some u) :
    users.foldl (afterWarming v) s = (users.drop (k + 1)).foldl (afterWarming v)
      (afterWarming v ((users.take k).foldl (afterWarming v) s) u) := by
  have hsplit : users = users.take k ++ u :: users.drop (k + 1) := by
    obtain ⟨hlt, rfl⟩ := List.getElem?_eq_some_iff.1 hk
    rw [List.getElem_cons_drop, List.take_append_drop]
  rw [← List.foldl_cons, ← List.foldl_append, ← hsplit]

/-- A user is warm in the end if it was warmed at its last place on the list. -/
theorem warm_of_warmings (httl : 0 < v.cache.persistentTtl) (hk : users[k]? = some u)
    (hlast : u ∉ users.drop (k + 1)) (hok : (warmings v users s)[k]? = some (.ok ())) :
    (users.foldl (afterWarming v) s).WarmFrom v.cache u s.world.assignments := by
  let before := (users.take k).foldl (afterWarming v) s
  have hwarmed : ((warmUser v u).runFrom before).1 = .ok () := by
    rw [warmings, List.getElem?_mapIdx, hk, Option.map_some] at hok
    exact Option.some.inj hok
  have hsame : before.world.assignments = s.world.assignments :=
    (about_foldl_afterWarming v s (users.take k)).assignments
  have hwarm : (afterWarming v before u).WarmFrom v.cache u s.world.assignments := by
    have hends := meets_warmUser v httl u _ before hsame
    unfold afterWarming
    generalize (warmUser v u).runFrom before = run at hends hwarmed
    match run with
    | (.ok (), t) => exact hends
    | (.error _, t) => cases hwarmed
  rw [foldl_afterWarming_of_getElem? v u s hk]
  exact hwarm.about (about_foldl_afterWarming v _ _) hlast

variable (users)

theorem runFrom_warmCache : ∃ t,
    (About users s t ∧ ∀ u a, (users.foldl (afterWarming v) s).WarmFrom v.cache u a →
      t.WarmFrom v.cache u a) ∧
    (warmCache v users).runFrom s = (.ok ⟨users.length, (warmings v users s).countP (·.isOk),
      (warmings v users s).countP (!·.isOk)⟩, t) := by
  have habout := about_foldl_afterWarming v s users
  refine ⟨_, ⟨?_, fun u a h => ?_⟩, (Act.runFrom_bind_ok (runFrom_warmEach v s users) _).trans rfl⟩
  · exact { habout with }
  · exact h.congr rfl rfl

end Operations

namespace Deployment

open Operations

variable {Obj : Type} [DomainObject Obj] {d : Deployment Obj} {i : Nat} {p : Process Obj}

/-- Warming attempts everyone on the list and tells how many of the attempts have succeeded, each
being made where the ones before it have left off. Whoever has been warmed at its last place on the
list is stored as what its assignments come to, whatever was cached of it before; a session that does
not hold it yet sees just that and loads nothing, unless nothing is kept in memory and the store
refuses to be read. Nothing of anyone else has changed, nor what sessions hold. -/
theorem step_warm (hp : d.process? i = some p) (httl : 0 < p.engine.service.cache.persistentTtl)
    (users : List UserId) :
    let v := p.engine.service
    let before (k : Nat) := ((warmEach v (users.take k)).runFrom (p.scene d.world .empty)).2
    let outcome (k : Nat) (u : UserId) := ((warmUser v u).runFrom (before k)).1
    let step := d.step (.process i (.warm users))
    let d' := step.2
    (∃ warmed failed, step.1.1 = .ok (.warmed ⟨users.length, warmed, failed⟩) ∧
      warmed = (users.mapIdx outcome).countP (·.isOk) ∧ warmed + failed = users.length) ∧
    (∀ k u, users[k]? = some u → u ∉ users.drop (k + 1) → outcome k u = .ok () →
      ∃ rows p', d.world.assignments.load u = .ok rows ∧ d'.process? i = some p' ∧
        d'.world.keyValues.get (persistentKey u) = some (Snapshot.ofRows rows).toBytes ∧
        ∀ held : Held, held.get? u = none →
          let seen := (v.snapshot u).runFrom (p'.scene d'.world held)
          seen.2.world.callCount .loadAssignments = d'.world.callCount .loadAssignments ∧
          (seen.1 = .ok (.ofRows rows) ∨ v.cache.sharedKeeps = false ∧
            ∃ e, d'.world.ahead.refusal .getKey 0 = some e ∧ seen.1 = .error (.storage e))) ∧
    About i users d d' := by
  intro v before outcome step d'
  have hwarmings : users.mapIdx outcome = warmings v users (p.scene d.world .empty) := by
    refine congrArg users.mapIdx ?_
    funext k u
    simp only [outcome, before, runFrom_warmEach]
  obtain ⟨t, ⟨habout, hwarm⟩, hrun⟩ := runFrom_warmCache v (p.scene d.world .empty) users
  rw [← hwarmings] at hrun
  have hstep := runFrom_runInProcess (t := fun e => Operations.warmCache e.service users) hp
    Answer.warmed hrun
  have hanswer : step.1.1 = .ok (.warmed ⟨_, _, _⟩) := congrArg Prod.fst hstep
  have hleft : d' = d.settle i p t := congrArg Prod.snd hstep
  rw [hleft]
  refine ⟨⟨_, _, hanswer, rfl, ?_⟩, fun k u hk hlast hok => ?_, about_settle hp habout⟩
  · have hlength := List.length_eq_countP_add_countP Except.isOk (l := users.mapIdx outcome)
    simp only [Bool.not_eq_true, Bool.decide_eq_false, List.length_mapIdx] at hlength
    exact hlength.symm
  · have hplace : (warmings v users (p.scene d.world .empty))[k]? = some (.ok ()) := by
      rw [← hwarmings, List.getElem?_mapIdx, hk, Option.map_some, hok]
    obtain ⟨rows, hrows, hwarm⟩ := hwarm u _ (warm_of_warmings v u _ httl hk hlast hplace)
    refine ⟨rows, p.after t, hrows, process?_settle_self hp t, hwarm.stored, fun held hheld => ?_⟩
    exact v.snapshot_of_warm (s := (p.after t).scene t.world held)
      ⟨hwarm.stored, hwarm.shared⟩ hheld

/-- A user is on the list twice, with a stale snapshot stored of it. Its first attempt fails, as the
deletion is refused; the second one replaces the snapshot by what the user is assigned. -/
theorem step_warm_twice :
    let stale : Snapshot := Snapshot.empty.grant rootId 1 Snapshot.superAdmin []
    let rows : List Row := [⟨1, "reader", rootId, ["read"]⟩]
    let assignments : AssignmentStore :=
      ⟨.insert .empty 1 ⟨"reader", .insert .empty "read"⟩, .insert .empty 7 [⟨1, rootId⟩]⟩
    let entries := [(persistentKey 7, (⟨stale.toBytes, 60⟩ : Stored))]
    let refusal (c : Call) (j : Nat) : Option StorageError :=
      if c = .deleteKey ∧ j = 0 then some (.connection "down") else none
    let w : World := { World.new with
      assignments, keyValues := ⟨.ofList entries⟩, disruption := { Disruption.none with refusal } }
    let v : Service Strand := ⟨⟨.ofList ["file"], 25⟩, .empty, {}⟩
    let d : Deployment Strand :=
      ⟨w, [some (.start (.withParts v {}))], .empty, .empty, .empty, .empty⟩
    let step := d.step (.process 0 (.warm [7, 8, 7]))
    step.1.1 = .ok (.warmed ⟨3, 2, 1⟩) ∧
      step.2.world.keyValues.get (persistentKey 7) = some (Snapshot.ofRows rows).toBytes ∧
      ∃ p', step.2.process? 0 = some p' ∧
        ((v.snapshot 7).runFrom (p'.scene step.2.world .empty)).1 = .ok (.ofRows rows) := by
  intro stale rows assignments entries refusal w v d step
  have hp : d.process? 0 = some (.start (.withParts v {})) := rfl
  obtain ⟨⟨warmed, failed, hanswer, hwarmed, hall⟩, hlast, -⟩ :=
    step_warm hp (by decide) [7, 8, 7]
  obtain ⟨rows', p', hload, hp', hstored, hseen⟩ :=
    hlast 2 7 rfl (by decide) (by decide +kernel)
  obtain rfl : rows' = rows := Except.ok.inj (hload.symm.trans (by decide +kernel))
  obtain rfl : warmed = 2 := hwarmed.trans (by decide +kernel)
  obtain rfl : failed = 1 := Nat.add_left_cancel (hall.trans rfl)
  have hshown := (hseen .empty rfl).2.resolve_right fun h => absurd h.1 (by decide)
  simp only [step]
  exact ⟨hanswer, hstored, p', hp', hshown⟩

end Deployment

end Clearance
