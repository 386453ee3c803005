import Clearance.Proofs.Cache.Counting
import Clearance.Proofs.Deployment.About

/-! Dropping many users at once. Everyone is attempted, whatever becomes of the others: memory is
cleared in any case, the key-value store where the request is not refused. -/
namespace Clearance

theorem SortedMap.get?_foldl_erase {α β : Type} [Ord α] [Std.TransOrd α] [Std.LawfulEqOrd α]
    [DecidableEq α] (keys : List α) (m : SortedMap α β) (k : α) :
    (keys.foldl erase m).get? k = if k ∈ keys then none else m.get? k := by
  induction keys generalizing m with
  | nil => rfl
  | cons k' keys ih =>
    rw [List.foldl_cons, ih]
    by_cases hk : k = k'
    · rw [hk, get?_erase_self, if_pos List.mem_cons_self, ite_self]
    · rw [get?_erase_of_ne m hk]
      simp only [List.mem_cons, hk, false_or]

theorem findSome?_range {α : Type} {f : Nat → Option α} {n j : Nat} {a : α} (hj : j < n)
    (ha : f j = some a) (hbefore : ∀ k < j, f k = none) : (List.range n).findSome? f = some a := by
  obtain ⟨m, rfl⟩ := Nat.exists_eq_add_of_lt hj
  have hnone : (List.range j).findSome? f = none :=
    List.findSome?_eq_none_iff.2 fun k hk => hbefore k (List.mem_range.1 hk)
  rw [Nat.add_assoc, List.range_add, List.findSome?_append, hnone, Option.none_or,
    List.range_succ_eq_map, List.map_cons, List.findSome?_cons, Nat.add_zero, ha]

namespace Operations

/-- The users with what meets the request to delete what is stored of each, when they are dropped
one after the other. -/
def deletions (x : Disruption) (users : List UserId) : List (UserId × Option StorageError) :=
  users.mapIdx fun j u => (u, x.refusal .deleteKey j)

section Deletions

variable {x : Disruption} {u : UserId} {users : List UserId}

theorem deletions_cons : deletions x (u :: users) =
    (u, x.refusal .deleteKey 0) :: deletions (x.afterCall .deleteKey) users := by
  rw [deletions, List.mapIdx_cons, deletions]
  congr 2
  funext j u
  simp only [Disruption.afterCall, if_true, Nat.add_comm]

theorem mem_deletions {r : Option StorageError} :
    (u, r) ∈ deletions x users ↔ ∃ j, users[j]? = some u ∧ x.refusal .deleteKey j = r := by
  simp only [deletions, List.mem_iff_getElem?, List.getElem?_mapIdx, Option.map_eq_some_iff,
    Prod.mk.injEq]
  constructor
  · rintro ⟨j, v, hv, rfl, hr⟩
    exact ⟨j, hv, hr⟩
  · rintro ⟨j, hv, hr⟩
    exact ⟨j, u, hv, rfl, hr⟩

variable (x users)

theorem map_fst_deletions : (deletions x users).map (·.1) = users := by
  refine List.ext_getElem (by simp [deletions]) fun j _ _ => ?_
  simp [deletions]

theorem map_snd_deletions :
    (deletions x users).map (·.2) = (List.range users.length).map (x.refusal .deleteKey) := by
  refine List.ext_getElem (by simp [deletions]) fun j _ _ => ?_
  simp [deletions]

theorem length_deletions : (deletions x users).length = users.length := List.length_mapIdx

theorem findSome?_deletions : (deletions x users).findSome? (·.2) =
    (List.range users.length).findSome? (x.refusal .deleteKey) := by
  have h := congrArg (List.findSome? id) (map_snd_deletions x users)
  rwa [List.findSome?_map, List.findSome?_map] at h

theorem countP_deletions : (deletions x users).countP (·.2.isNone) =
    (List.range users.length).countP fun j => (x.refusal .deleteKey j).isNone := by
  have h := congrArg (List.countP Option.isNone) (map_snd_deletions x users)
  rwa [List.countP_map, List.countP_map] at h

end Deletions

/-- The scene once users have been dropped from both lower tiers, if their deletions have met this. -/
structure Dropped (l : List (UserId × Option StorageError)) (s t : Scene) : Prop where
  shared : t.shared = (l.map fun x => sharedKey x.1).foldl SortedMap.erase s.shared
  keyValues : t.world.keyValues.entries = ((l.filter (·.2.isNone)).map fun x =>
    persistentKey x.1).foldl SortedMap.erase s.world.keyValues.entries
  counters : t.counters = s.counters + { invalidations := l.countP (·.2.isNone) }
  requests : t.world.callCount .deleteKey = s.world.callCount .deleteKey + l.length
  contexts : t.world.contexts = s.world.contexts
  assignments : t.world.assignments = s.world.assignments
  root : t.root = s.root
  held : t.held = s.held

namespace Dropped

variable {l l' : List (UserId × Option StorageError)} {s t r : Scene} {u : UserId}

theorem nil (s : Scene) : Dropped [] s s where
  shared := rfl
  keyValues := rfl
  counters := (add_zero _).symm
  requests := rfl
  contexts := rfl
  assignments := rfl
  root := rfl
  held := rfl

theorem append (h : Dropped l s t) (h' : Dropped l' t r) : Dropped (l ++ l') s r where
  shared := by rw [h'.shared, h.shared, List.map_append, List.foldl_append]
  keyValues := by
    rw [h'.keyValues, h.keyValues, List.filter_append, List.map_append, List.foldl_append]
  counters := by
    rw [h'.counters, h.counters, List.countP_append, add_assoc]
    rfl
  requests := by rw [h'.requests, h.requests, List.length_append, Nat.add_assoc]
  contexts := h'.contexts.trans h.contexts
  assignments := h'.assignments.trans h.assignments
  root := h'.root.trans h.root
  held := h'.held.trans h.held

theorem shared_of_mem (h : Dropped l s t) (hu : u ∈ l.map (·.1)) :
    t.shared.get? (sharedKey u) = none := by
  have hmem : sharedKey u ∈ l.map fun x => sharedKey x.1 := by
    obtain ⟨x, hx, rfl⟩ := List.mem_map.1 hu
    exact List.mem_map.2 ⟨x, hx, rfl⟩
  rw [h.shared, SortedMap.get?_foldl_erase, if_pos hmem]

/-- What is stored of a user is gone if one of its deletions has not been refused. -/
theorem get?_keyValues (h : Dropped l s t) (u : UserId) :
    t.world.keyValues.entries.get? (persistentKey u) =
      if (u, none) ∈ l then none else s.world.keyValues.entries.get? (persistentKey u) := by
  have hmem : (persistentKey u ∈ (l.filter (·.2.isNone)).map fun x => persistentKey x.1) ↔
      (u, none) ∈ l := by
    simp only [List.mem_map, List.mem_filter, Option.isNone_iff_eq_none]
    constructor
    · rintro ⟨⟨v, r⟩, ⟨hx, hr⟩, hkey⟩
      obtain rfl : r = none := hr
      exact persistentKey_injective hkey ▸ hx
    · exact fun hx => ⟨_, ⟨hx, rfl⟩, rfl⟩
  rw [h.keyValues, SortedMap.get?_foldl_erase]
  simp only [hmem]

theorem lacks (h : Dropped l s t) (hs : s.Lacks u) : t.Lacks u := by
  constructor
  · rw [h.shared, SortedMap.get?_foldl_erase]
    split
    · rfl
    · exact hs.1
  · rw [KeyValueStore.get, h.get?_keyValues u]
    split
    · rfl
    · exact hs.2

theorem about (h : Dropped l s t) : Scene.About (l.map (·.1)) s t where
  assignments := h.assignments
  keyValues key hkey := by
    rw [h.keyValues, SortedMap.get?_foldl_erase, if_neg]
    intro hmem
    obtain ⟨x, hx, rfl⟩ := List.mem_map.1 hmem
    exact hkey x.1 (List.mem_map_of_mem (List.mem_filter.1 hx |>.1)) rfl
  shared key hkey := by
    rw [h.shared, SortedMap.get?_foldl_erase, if_neg]
    intro hmem
    obtain ⟨x, hx, rfl⟩ := List.mem_map.1 hmem
    exact hkey x.1 (List.mem_map_of_mem hx) rfl
  held := h.held

end Dropped

theorem invalidateShared_dropped (u : UserId) (s : Scene) :
    ∃ t, Dropped [(u, s.world.ahead.refusal .deleteKey 0)] s t ∧
      t.world.ahead = s.world.ahead.afterCall .deleteKey ∧
      (Cache.invalidateShared u).runFrom s = (match s.world.ahead.refusal .deleteKey 0 with
        | some e => .error (.storage e)
        | none => .ok (), t) := by
  let noted : World := s.world.noting .deleteKey
  let s₁ : Scene := { s with shared := s.shared.erase (sharedKey u) }
  have hunshare : (Cache.unshare u : Act Scene Error Unit).runFrom s = (.ok (), s₁) := rfl
  have hrequests : noted.callCount .deleteKey = s.world.callCount .deleteKey + 1 :=
    s.world.callCount_noting ..
  have hahead : noted.ahead = s.world.ahead.afterCall .deleteKey := World.ahead_noting ..
  have hask := Scene.runFrom_ask (World.deleteKey (persistentKey u)) s₁
  rw [World.deleteKey, World.runFrom_request_ahead] at hask
  cases hr : s.world.ahead.refusal .deleteKey 0 with
  | some e =>
    rw [show s₁.world.ahead.refusal .deleteKey 0 = some e from hr] at hask
    refine ⟨{ s₁ with world := noted },
      ⟨rfl, rfl, (add_zero _).symm, hrequests, rfl, rfl, rfl, rfl⟩, hahead, ?_⟩
    refine (Act.runFrom_bind_ok hunshare _).trans ?_
    exact Act.runFrom_bind_error hask _
  | none =>
    rw [show s₁.world.ahead.refusal .deleteKey 0 = none from hr] at hask
    let w : World := { noted with keyValues := s.world.keyValues.delete (persistentKey u) }
    let t : Scene := { s₁ with
      world := w.count fun m => { m with invalidations := m.invalidations + 1 }
      counters := s.counters + { invalidations := 1 } }
    refine ⟨t, ⟨rfl, rfl, rfl, hrequests, rfl, rfl, rfl, rfl⟩, hahead, ?_⟩
    refine (Act.runFrom_bind_ok hunshare _).trans ?_
    exact (Act.runFrom_bind_ok hask _).trans rfl

theorem invalidateAllLevels_dropped (u : UserId) (s : Scene) :
    ∃ t, Dropped [(u, s.world.ahead.refusal .deleteKey 0)] s t ∧
      t.world.ahead = s.world.ahead.afterCall .deleteKey ∧
      (invalidateAllLevels u).runFrom s = (match s.world.ahead.refusal .deleteKey 0 with
        | some e => .error (.storage e)
        | none => .ok (), t) := by
  obtain ⟨t, hdropped, hahead, hrun⟩ := invalidateShared_dropped u s
  cases hr : s.world.ahead.refusal .deleteKey 0 with
  | some e =>
    rw [hr] at hdropped hrun
    exact ⟨t, hdropped, hahead, Act.runFrom_bind_error hrun _⟩
  | none =>
    rw [hr] at hdropped hrun
    exact ⟨{ t with world := t.world.log (.invalidated u) }, { hdropped with }, hahead,
      (Act.runFrom_bind_ok hrun _).trans rfl⟩

/-- Everyone is attempted. What is counted are the deletions that are not refused, and what is told
of the others is the first refusal. -/
theorem invalidateEach_dropped (users : List UserId) (s : Scene) :
    let l := deletions s.world.ahead users
    ∃ t, Dropped l s t ∧ (invalidateEach users).runFrom s =
      (.ok (l.countP (·.2.isNone), (l.findSome? (·.2)).map .storage), t) := by
  intro l
  induction users generalizing s with
  | nil => exact ⟨s, .nil s, rfl⟩
  | cons u users ih =>
    obtain ⟨t, hdropped, hahead, hrun⟩ := invalidateAllLevels_dropped u s
    have hattempt : ((invalidateAllLevels u).attempt : Act Scene Error _).runFrom s =
      (.ok ((invalidateAllLevels u).runFrom s).1, ((invalidateAllLevels u).runFrom s).2) := rfl
    rw [hrun] at hattempt
    have hl : l = (u, s.world.ahead.refusal .deleteKey 0) :: deletions t.world.ahead users := by
      rw [hahead]
      exact deletions_cons
    rw [hl]
    cases hr : s.world.ahead.refusal .deleteKey 0 with
    | none =>
      rw [hr] at hdropped hattempt
      obtain ⟨r, hrest, hrun⟩ := ih t
      refine ⟨r, hdropped.append hrest, ?_⟩
      refine (Act.runFrom_bind_ok hattempt _).trans ?_
      rw [List.countP_cons_of_pos rfl]
      exact (Act.runFrom_bind_ok hrun _).trans rfl
    | some e =>
      rw [hr] at hdropped hattempt
      let event : Event := .invalidationFailed u (.storage e)
      let logged : Scene := { t with world := t.world.log event }
      have hlog : (Scene.log event : Act Scene Error Unit).runFrom t = (.ok (), logged) := rfl
      obtain ⟨r, hrest, hrun⟩ := ih logged
      have hlogged : Dropped [(u, some e)] s logged := { hdropped with }
      refine ⟨r, hlogged.append hrest, ?_⟩
      refine (Act.runFrom_bind_ok hattempt _).trans ?_
      refine (Act.runFrom_bind_ok hlog _).trans ?_
      rw [List.countP_cons_of_neg Bool.false_ne_true]
      exact (Act.runFrom_bind_ok hrun _).trans rfl

/-- Where nothing is refused, as many users have been dropped as there are; otherwise the first
refusal is reported. -/
theorem invalidateBatch_dropped (users : List UserId) (s : Scene) :
    ∃ t, Dropped (deletions s.world.ahead users) s t ∧ (invalidateBatch users).runFrom s =
      (match (List.range users.length).findSome? (s.world.ahead.refusal .deleteKey) with
        | some e => .error (.storage e)
        | none => .ok users.length, t) := by
  obtain ⟨t, hdropped, hrun⟩ := invalidateEach_dropped users s
  rw [countP_deletions, findSome?_deletions] at hrun
  let n := (List.range users.length).countP fun j => (s.world.ahead.refusal .deleteKey j).isNone
  let event : Event := .batchInvalidated users.length n
  let logged : Scene := { t with world := t.world.log event }
  have hlog : (Scene.log event : Act Scene Error Unit).runFrom t = (.ok (), logged) := rfl
  refine ⟨logged, { hdropped with }, ?_⟩
  refine (Act.runFrom_bind_ok hrun _).trans ?_
  refine (Act.runFrom_bind_ok hlog _).trans ?_
  cases hfailure : (List.range users.length).findSome? (s.world.ahead.refusal .deleteKey) with
  | some e => rfl
  | none =>
    have hall : n = (List.range users.length).length := List.countP_eq_length.2 fun j hj =>
      Option.isNone_iff_eq_none.2 (List.findSome?_eq_none_iff.1 hfailure j hj)
    show (Except.ok n, logged) = _
    rw [hall, List.length_range]

end Operations

namespace Deployment

open Operations

variable {Obj : Type} [DomainObject Obj] {d : Deployment Obj} {i : Nat} {p : Process Obj}

/-- Whatever deletions are refused, a batch attempts everyone in it. Nobody on the list is left in
the memory of the process, and nothing is stored any more of those with a deletion that was not
refused; these deletions are counted. The answer is how many users are on the list, or else the first
refusal in its order. Nothing else changes: not what is stored or shared of anyone else, and not what
sessions hold. -/
theorem step_invalidateBatch (hp : d.process? i = some p) (users : List UserId) :
    let refusal := d.world.ahead.refusal .deleteKey
    let step := d.step (.process i (.invalidateBatch users))
    let answer := step.1.1
    let d' := step.2
    (answer = .ok (.number (some users.length)) ↔ ∀ j < users.length, refusal j = none) ∧
    (∀ j < users.length, ∀ e, refusal j = some e → (∀ k < j, refusal k = none) →
      answer = .error (.engine (.storage e))) ∧
    (∃ p', d'.process? i = some p' ∧
      (∀ u ∈ users, p'.shared.get? (sharedKey u) = none) ∧
      p'.counters = p.counters +
        { invalidations := (List.range users.length).countP fun j => (refusal j).isNone }) ∧
    (∀ u, (∃ j, users[j]? = some u ∧ refusal j = none) →
      d'.world.keyValues.entries.get? (persistentKey u) = none) ∧
    (∀ u, (¬∃ j, users[j]? = some u ∧ refusal j = none) →
      d'.world.keyValues.entries.get? (persistentKey u) =
        d.world.keyValues.entries.get? (persistentKey u)) ∧
    d'.world.callCount .deleteKey = d.world.callCount .deleteKey + users.length ∧
    d'.world.contexts = d.world.contexts ∧ About i users d d' := by
  intro refusal step answer d'
  obtain ⟨t, hdropped, hrun⟩ := invalidateBatch_dropped users (p.scene d.world .empty)
  replace hdropped : Dropped (deletions d.world.ahead users) (p.scene d.world .empty) t := hdropped
  have hstep := runFrom_runInProcess (t := fun _ => Operations.invalidateBatch users) hp
    (fun n => Answer.number (some n)) hrun
  have hanswer : answer = match (List.range users.length).findSome? refusal with
      | some e => .error (.engine (.storage e))
      | none => .ok (.number (some users.length)) := by
    refine (congrArg Prod.fst hstep).trans ?_
    show Except.map _ (Except.mapError _ (match (List.range users.length).findSome? refusal with
      | some e => _
      | none => _)) = _
    cases (List.range users.length).findSome? refusal <;> rfl
  have hleft : d' = d.settle i p t := congrArg Prod.snd hstep
  clear_value answer d'
  subst hleft
  refine ⟨?_, fun j hj e he hbefore => ?_, ⟨p.after t, process?_settle_self hp t, fun u hu => ?_,
    countP_deletions _ users ▸ hdropped.counters⟩, fun u hu => ?_, fun u hu => ?_, ?_,
    hdropped.contexts, ?_⟩
  · rw [hanswer]
    constructor
    · intro h j hj
      cases hfailure : (List.range users.length).findSome? refusal with
      | some e =>
        rw [hfailure] at h
        cases h
      | none => exact List.findSome?_eq_none_iff.1 hfailure j (List.mem_range.2 hj)
    · intro h
      rw [List.findSome?_eq_none_iff.2 fun j hj => h j (List.mem_range.1 hj)]
  · rw [hanswer, findSome?_range hj he hbefore]
  · exact hdropped.shared_of_mem ((map_fst_deletions _ users).symm ▸ hu)
  · exact (hdropped.get?_keyValues u).trans (if_pos (mem_deletions.2 hu))
  · exact (hdropped.get?_keyValues u).trans (if_neg fun hmem => hu (mem_deletions.1 hmem))
  · rw [← length_deletions d.world.ahead]
    exact hdropped.requests
  · have habout := hdropped.about
    rw [map_fst_deletions] at habout
    exact about_settle hp habout

/-- Two users are dropped, one of them twice. The first request is refused, and the third one is
about the same user; another user stays cached. -/
theorem step_invalidateBatch_twice :
    let snapshots := [7, 8, 9].map fun u => (sharedKey u, Snapshot.empty)
    let entries := [7, 8, 9].map fun u => (persistentKey u, (⟨Snapshot.empty.toBytes, 60⟩ : Stored))
    let refusal (c : Call) (j : Nat) : Option StorageError :=
      if c = .deleteKey ∧ j = 0 then some (.connection "down") else none
    let w : World := { World.new with
      keyValues := ⟨.ofList entries⟩, disruption := { Disruption.none with refusal } }
    let v : Service Strand := ⟨⟨.ofList ["file"], 25⟩, .empty, {}⟩
    let p : Process Strand := { Process.start (.withParts v {}) with shared := .ofList snapshots }
    let d : Deployment Strand := ⟨w, [some p], .empty, .empty, .empty, .empty⟩
    let step := d.step (.process 0 (.invalidateBatch [7, 8, 7]))
    let stored (u : UserId) := step.2.world.keyValues.entries.get? (persistentKey u)
    step.1.1 = .error (.engine (.storage (.connection "down"))) ∧
      stored 7 = none ∧ stored 8 = none ∧ (stored 9).isSome = true ∧
      ∃ p', step.2.process? 0 = some p' ∧ p'.counters = { invalidations := 2 } ∧
        p'.shared.get? (sharedKey 7) = none ∧ p'.shared.get? (sharedKey 8) = none := by
  intro snapshots entries refusal w v p d step stored
  have hp : d.process? 0 = some p := rfl
  obtain ⟨-, hfirst, ⟨p', hp', hshared, hcounters⟩, hgone, hkept, -⟩ :=
    step_invalidateBatch hp [7, 8, 7]
  simp only [stored, step]
  refine ⟨hfirst 0 (by decide) _ rfl fun k hk => absurd hk k.not_lt_zero, hgone 7 ⟨2, rfl, rfl⟩,
    hgone 8 ⟨1, rfl, rfl⟩, ?_, p', hp', ?_, hshared 7 (by simp), hshared 8 (by simp)⟩
  · rw [hkept 9 fun ⟨j, hj, _⟩ => absurd (List.mem_of_getElem? hj) (by decide +kernel)]
    decide +kernel
  · rw [hcounters]
    decide +kernel

end Deployment

end Clearance
