import Clearance.Proofs.Deployment.Drops
import Clearance.Proofs.Deployment.Mirror
import Clearance.Proofs.Deployment.Sessions
import Clearance.Proofs.Session.Pinned

/-! Users who stay pinned. In one process that has the key-value store to itself, a user who has
been made a super-admin remains one for every session that is opened afterwards, whatever is done,
as long as no deletion of what is stored of the user is carried out. -/
namespace Clearance

variable {Obj : Type}

namespace Command

/-- Whether something is put into the cache of the user past the services. -/
def supplants (u : UserId) : Command Obj → Bool
  | .cache _ _ (.put v _ _) => v = u
  | _ => false

theorem mem_clears_of_drops {c : Command Obj} {u : UserId} (h : u ∈ c.drops) : u ∈ c.clears := by
  cases c with
  | session name c =>
    cases c with
    | invalidate w => exact h
    | _ => cases h
  | cache i holder c =>
    cases c with
    | invalidate w => exact h
    | _ => cases h
  | process i c =>
    cases c with
    | invalidateShared w | invalidateAll w | invalidateBatch users => exact h
    | _ => cases h
  | _ => cases h

end Command

/-- The user is pinned to the snapshot of a super-admin in what a session of the engine sees. -/
def PinsIn (own : Prop) (u : UserId) (e : Engine Obj) (s : Scene) : Prop :=
  s.Pins e.service.cache own u .ofSuperAdmin

section PinsIn

variable {own : Prop} {u : UserId}

theorem pinsIn_lasting : Lasting (PinsIn False u : Engine Obj → Scene → Prop) :=
  ⟨fun _ h => { h with held := False.elim }, fun _ h => h⟩

theorem pinsIn_layers :
    Deployment.Layers (PinsIn False u) (PinsIn True u : Engine Obj → Scene → Prop) where
  fresh h := { h with held := fun _ hp => nomatch hp }
  join h h' := { h' with held := h.held }

theorem keeps_pins_store {s : StoreCommand} (hs : s.writesKeys = false) (e : Engine Obj) :
    (Scene.onWorld s.perform).Keeps (PinsIn own u e) := by
  refine Scene.keeps_pins_onWorld fun bytes => ?_
  refine s.keeps_perform (I := fun k => k.keyValues.get (persistentKey u) = some bytes)
    (fun _ _ _ _ h => h) (fun _ _ _ h => h) ?_ ?_
  · rintro key value ttl rfl
    cases hs
  · rintro key rfl
    cases hs

theorem pinsIn_observes [DomainObject Obj] {c : Command Obj} (hc : c.ThroughService)
    (hputs : c.supplants u = false) (hclears : u ∉ c.clears) : c.Observes (PinsIn own u) where
  care e := e.service.pins_care
  unshare _ w hw := Cache.pins_invalidateShared fun hsame => hclears (hsame ▸ hw)
  guide _ r subject := Scene.keeps_pins_onAtlas (Resolver.leaves_resolve r subject)
  put {e w p ttl} hp s hs := by
    refine Cache.pins_put (fun hw => ?_) s hs
    subst hw
    cases c with
    | session name c =>
      cases c with
      | actAsSuperAdmin v => exact ⟨hp.2.1, hp.2.2 ▸ hs.retains⟩
      | _ => cases hp
    | cache i holder c =>
      cases c with
      | put v rows t => exact absurd hp.1 (of_decide_eq_false hputs)
      | _ => cases hp
    | _ => cases hp
  store e hstore := by
    subst hstore
    exact keeps_pins_store hc e

end PinsIn

namespace Deployment

open Operations

theorem meets_everywhere_runIn {J : Engine Obj → Scene → Prop} (hJ : Lasting J)
    {P : Deployment Obj → Prop} (hP : ∀ d, P d → Everywhere J d) {i : Nat} {held : Held}
    {keep : Held → Deployment Obj → Deployment Obj}
    (hkeep : ∀ held d, (keep held d).world = d.world ∧ (keep held d).processes = d.processes)
    {t : Engine Obj → Act Scene Failure Answer}
    (ht : ∀ e, (t e).Meets (J e) (fun _ _ => True) fun _ => J e) :
    (runIn i held keep t).Meets P (fun _ _ => True) fun _ => Everywhere J := by
  intro d hd
  replace hd := hP d hd
  simp only [runIn, Act.runFrom_ofFun]
  cases hp : d.process? i with
  | none => exact hd
  | some p =>
    have hends := ht p.engine (p.scene d.world held) (hJ.held held (hd.each hp))
    dsimp only
    generalize (t p.engine).runFrom (p.scene d.world held) = x at hends ⊢
    obtain ⟨r, s⟩ := x
    cases r with
    | ok answer => trivial
    | error e => exact (hd.after hJ hp hends).of_same (hkeep ..).1 (hkeep ..).2

theorem everywhere_runInProcess {J : Engine Obj → Scene → Prop} (hJ : Lasting J) {i : Nat}
    {d : Deployment Obj} (hd : d.Everywhere J) {α : Type} {t : Engine Obj → Act Scene Failure α}
    (ht : ∀ {p}, d.process? i = some p → J p.engine (p.scene d.world .empty) →
      J p.engine ((t p.engine).runFrom (p.scene d.world .empty)).2) :
    ((runInProcess i t).runFrom d).2.Everywhere J := by
  simp only [runInProcess, runIn, Act.runFrom_ofFun]
  cases hp : d.process? i with
  | none => exact hd
  | some p => exact hd.after hJ hp (ht hp (hd.each hp))

variable [DomainObject Obj]

/-- The command drops the user from the key-value store: with success, or as one of many who are
dropped or warmed, whatever becomes of the others. -/
inductive Invalidates (d : Deployment Obj) (u : UserId) : Command Obj → Prop
  | answered {c : Command Obj} : u ∈ c.drops → (d.step c).1.1.isOk = true → Invalidates d u c
  | batch {i j : Nat} {users : List UserId} : (d.process? i).isSome = true →
    users[j]? = some u → d.world.ahead.refusal .deleteKey j = none →
    Invalidates d u (.process i (.invalidateBatch users))
  | warm {i j : Nat} {p : Process Obj} {users : List UserId} : d.process? i = some p →
    users[j]? = some u → ((Cache.invalidateShared u).runFrom ((warmEach p.engine.service
      (users.take j)).runFrom (p.scene d.world .empty)).2).1.isOk = true →
    Invalidates d u (.process i (.warm users))

theorem Invalidates.mem_clears {d : Deployment Obj} {u : UserId} {c : Command Obj}
    (h : d.Invalidates u c) : u ∈ c.clears := by
  cases h with
  | answered hdrop _ => exact Command.mem_clears_of_drops hdrop
  | batch _ hj _ | warm _ hj _ => exact List.mem_of_getElem? hj

/-- The deployments that are reached when nothing but the services writes to the key-value store,
nothing in it expires and the user is not dropped. Shared entries vanish and requests are refused at
will. -/
inductive Sparing (u : UserId) (start : Deployment Obj) : Deployment Obj → Prop
  | start : Sparing u start start
  | command {d : Deployment Obj} {c : Command Obj} : Sparing u start d → c.ThroughService →
    c.supplants u = false → ¬d.Invalidates u c → Sparing u start (d.step c).2
  | evict {d : Deployment Obj} (i : Nat) (key : String) : Sparing u start d →
    Sparing u start (d.evict i key)
  | disrupt {d : Deployment Obj} (x : Disruption) : Sparing u start d →
    Sparing u start (d.disrupt x)

variable {start d d' : Deployment Obj} {u : UserId} {c : Command Obj}

theorem Sparing.confined (h : d.Sparing u d') (hd : start.Confined d) : start.Confined d' := by
  induction h with
  | start => exact hd
  | command _ hc _ _ ih => exact ih.command hc
  | evict i key _ ih => exact ih.evict i key
  | disrupt x _ ih => exact ih.disrupt x

section Clears

theorem everywhere_pins_batch (hd : d.Everywhere (PinsIn False u)) {i : Nat} {users : List UserId}
    (hc : ¬d.Invalidates u (.process i (.invalidateBatch users))) :
    (d.step (.process i (.invalidateBatch users))).2.Everywhere (PinsIn False u) := by
  show ((runInProcess i fun _ => (fun n => Answer.number (some n)) <$>
    (invalidateBatch users).mapError Failure.engine).runFrom d).2.Everywhere _
  refine everywhere_runInProcess pinsIn_lasting hd fun {p} hp hs => ?_
  obtain ⟨t, hdropped, hrun⟩ := invalidateBatch_dropped users (p.scene d.world .empty)
  rw [Act.runFrom_map, Act.runFrom_mapError, hrun]
  refine Scene.Pins.dropped hs hdropped fun hmem => ?_
  obtain ⟨j, hj, hrefusal⟩ := mem_deletions.1 hmem
  exact hc (.batch (Option.isSome_iff_exists.2 ⟨p, hp⟩) hj hrefusal)

theorem everywhere_pins_warm (hd : d.Everywhere (PinsIn False u)) {i : Nat} {users : List UserId}
    (hc : ¬d.Invalidates u (.process i (.warm users))) :
    (d.step (.process i (.warm users))).2.Everywhere (PinsIn False u) := by
  show ((runInProcess i fun e => Answer.warmed <$>
    (warmCache e.service users).mapError Failure.engine).runFrom d).2.Everywhere _
  refine everywhere_runInProcess pinsIn_lasting hd fun {p} hp hs => ?_
  rw [Act.runFrom_map, Act.runFrom_mapError]
  exact pins_warmCache p.engine.service hs fun j hj => Bool.eq_false_iff.2 fun hok =>
    hc (.warm hp hj hok)

/-- Whoever tries to drop the user and fails leaves it pinned. -/
theorem everywhere_pins_of_mem_clears (hd : d.Everywhere (PinsIn False u)) (hclears : u ∈ c.clears)
    (hspared : ¬d.Invalidates u c) : (d.step c).2.Everywhere (PinsIn False u) := by
  let J : Engine Obj → Scene → Prop := PinsIn False u
  have hfails (hdrop : u ∈ c.drops) (h : (perform c).Meets (Everywhere J) (fun _ _ => True)
      fun _ => Everywhere J) : (d.step c).2.Everywhere J :=
    h.of_not_isOk hd (Bool.eq_false_iff.2 fun hok => hspared (.answered hdrop hok))
  have hasked {e : Engine Obj} {α : Type} {t : Act Scene Error α}
      (ht : t.Meets (J e) (fun _ _ => True) fun _ => J e) :
      (t.mapError Failure.engine).Meets (J e) (fun _ _ => True) fun _ => J e :=
    Act.Meets.mapError (E := fun _ => J e) ht
  have hshared (e : Engine Obj) : (Cache.invalidateShared u).Meets (J e) (fun _ _ => True)
      fun _ => J e := Cache.meets_pins_invalidateShared u
  have hinvalidate (e : Engine Obj) : (Cache.invalidate u).Meets (J e) (fun _ _ => True)
      fun _ => J e := (e.service.pins_care.letGo u).meets.bind fun _ => hshared e
  have hprocess {i : Nat} {t : Engine Obj → Act Scene Error Unit}
      (ht : ∀ e, (t e).Meets (J e) (fun _ _ => True) fun _ => J e) :
      (runInProcess i fun e => (fun _ => Answer.nothing) <$> (t e).mapError Failure.engine).Meets
        (Everywhere J) (fun _ _ => True) fun _ => Everywhere J := by
    refine meets_everywhere_runIn pinsIn_lasting (fun _ h => h) (fun _ _ => ?_) fun e =>
      (hasked (ht e)).map
    exact ⟨rfl, rfl⟩
  cases c with
  | session name c =>
    cases c with
    | invalidate w =>
      obtain rfl := List.mem_singleton.1 hclears
      refine hfails hclears (Act.meets_get_bind fun x => ?_)
      cases x.sessions.get? name with
      | none => exact Act.meets_throw fun _ h => h.1
      | some y =>
        refine meets_everywhere_runIn pinsIn_lasting (fun _ h => h.1) (fun _ _ => ?_) fun e =>
          (hasked (hinvalidate e)).map
        exact ⟨rfl, rfl⟩
    | _ => cases hclears
  | cache i holder c =>
    cases c with
    | invalidate w =>
      obtain rfl := List.mem_singleton.1 hclears
      refine hfails hclears (Act.meets_get_bind fun x => ?_)
      refine meets_everywhere_runIn pinsIn_lasting (fun _ h => h.1) (fun _ _ => ?_) fun e =>
        hasked ((hinvalidate e).bind fun _ => Act.meets_pure fun _ _ => trivial)
      exact ⟨rfl, rfl⟩
    | _ => cases hclears
  | process i c =>
    cases c with
    | invalidateShared w =>
      obtain rfl := List.mem_singleton.1 hclears
      exact hfails hclears (hprocess hshared)
    | invalidateAll w =>
      obtain rfl := List.mem_singleton.1 hclears
      exact hfails hclears (hprocess (t := fun _ => invalidateAllLevels u) fun e =>
        (hshared e).bind fun _ => Act.meets_modify fun _ _ => trivial)
    | invalidateBatch users => exact everywhere_pins_batch hd hspared
    | warm users => exact everywhere_pins_warm hd hspared
    | _ => cases hclears
  | _ => cases hclears

/-- As long as it is not dropped, a user who is pinned stays so. -/
theorem everywhere_pins_step (hd : d.Everywhere (PinsIn False u)) (hc : c.ThroughService)
    (hputs : c.supplants u = false) (hspared : ¬d.Invalidates u c) :
    (d.step c).2.Everywhere (PinsIn False u) := by
  by_cases hclears : u ∈ c.clears
  · exact everywhere_pins_of_mem_clears hd hclears hspared
  · exact (everywhere_steps pinsIn_lasting).perform_of_observes (pinsIn_observes hc hputs hclears)
      (fun _ _ => trivial) d hd

end Clears

section Sees

variable {name : String}

/-- A session that fails to drop the user goes on to see it pinned. -/
theorem meets_sees_invalidate : (perform (.session name (.invalidate u) : Command Obj)).Meets
    (Sees (PinsIn True u) name) (fun _ _ => True) fun _ => Sees (PinsIn True u) name := by
  intro d hd
  show Act.Ends _ _ ((runInSession name _).runFrom d)
  cases hx : d.sessions.get? name with
  | none =>
    rw [runFrom_runInSession_none hx]
    exact hd
  | some x =>
    obtain ⟨p, hp, hs⟩ := hd x hx
    have hends : (Cache.invalidate u).Meets (PinsIn True u p.engine) (fun _ _ => True) fun _ =>
        PinsIn True u p.engine :=
      (p.engine.service.pins_care.letGo u).meets.bind fun _ => Cache.meets_pins_invalidateShared u
    rw [runFrom_runInSession_leave hx hp, Act.runFrom_map, Act.runFrom_mapError]
    replace hends := hends (p.scene d.world x.held) hs
    generalize (Cache.invalidate u).runFrom (p.scene d.world x.held) = run at hends
    obtain ⟨r, t⟩ := run
    cases r with
    | ok _ => trivial
    | error e => exact sees_leave (J := PinsIn True u) hp hends

theorem sees_pins_step (hd : d.Everywhere (PinsIn False u)) (hsees : d.Sees (PinsIn True u) name)
    (hc : c.ThroughService) (hputs : c.supplants u = false) (hspared : ¬d.Invalidates u c) :
    (d.step c).2.Sees (PinsIn True u) name := by
  -- the session lets go of what it holds before its request is refused
  by_cases hown : c = .session name (.invalidate u)
  · subst hown
    exact meets_sees_invalidate.of_not_isOk hsees
      (Bool.eq_false_iff.2 fun hok => hspared (.answered (List.mem_singleton_self u) hok))
  · refine hsees.step pinsIn_layers hd.each (everywhere_pins_step hd hc hputs hspared).each ?_
    rintro c' rfl
    refine pinsIn_observes hc hputs fun hclears => ?_
    cases c' with
    | invalidate w => exact hown (by rw [List.mem_singleton.1 hclears])
    | _ => cases hclears

/-- Along the way the user stays pinned in every process and for the session. -/
theorem Sparing.pins (h : d.Sparing u d') (hd : d.Everywhere (PinsIn False u)) (name : String) :
    d'.Everywhere (PinsIn False u) ∧
      (d.Sees (PinsIn True u) name → d'.Sees (PinsIn True u) name) := by
  -- what the session holds may be let go, so that the tiers have to be right at every step
  induction h with
  | start => exact ⟨hd, id⟩
  | command _ hc hputs hspared ih =>
    exact ⟨everywhere_pins_step ih.1 hc hputs hspared, fun hsees =>
      sees_pins_step ih.1 (ih.2 hsees) hc hputs hspared⟩
  | evict i key _ ih =>
    have hleft := ih.1.evict pinsIn_lasting (fun key hs =>
      { hs with shared := fun hp => hs.shared (SortedMap.get?_of_erase hp).2 }) i key
    refine ⟨hleft, fun hsees => ?_⟩
    exact (ih.2 hsees).carry (T := PinsIn False u) (congrArg (·.get? name) (sessions_evict ..))
      (engine_evict _ i key) hleft.each pinsIn_layers.join
  | @disrupt d x _ ih =>
    have hleft : (d.disrupt x).Everywhere (PinsIn False u) :=
      ih.1.reworld (w := { d.world with disruption := x }) fun _ hs => hs
    exact ⟨hleft, fun hsees => (ih.2 hsees).carry (T := PinsIn False u) rfl (fun _ => rfl)
      hleft.each pinsIn_layers.join⟩

theorem flag_of_isSuperAdmin (hsees : d.Sees (PinsIn True u) name) {answer : Answer}
    (h : (d.step (.session name (.isSuperAdmin u))).1.1 = .ok answer) : answer = .flag true := by
  obtain ⟨b, rfl, hanswer⟩ := hsees.answer (fun e => e.service.meets_pins_isSuperAdmin) h
  exact hanswer.symm

end Sees

end Deployment

end Clearance
