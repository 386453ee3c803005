import Clearance.Proofs.Deployment.Frame

/-! What invalidations leave. One that succeeds leaves nothing in the key-value store of any user that
it is about, whoever asks for it and in whichever process. -/
namespace Clearance

variable {Obj : Type}

/-- The users that are dropped from the shared tiers, if the command succeeds. -/
def Command.drops : Command Obj → List UserId
  | .session _ (.invalidate u) => [u]
  | .cache _ _ (.invalidate u) => [u]
  | .process _ (.invalidateShared u) => [u]
  | .process _ (.invalidateAll u) => [u]
  | .process _ (.invalidateBatch users) => users
  | _ => []

def World.Lacks (users : List UserId) (w : World) : Prop :=
  ∀ u ∈ users, w.keyValues.get (persistentKey u) = none

namespace Operations

variable {u : UserId} {users : List UserId}

theorem meets_invalidateShared : (Cache.invalidateShared u).Meets (fun _ => True)
    (fun _ s => s.world.Lacks [u]) fun _ _ => True :=
  (Cache.meets_invalidateShared u).mono (fun _ h => h)
    (fun _ _ h _ hv => List.mem_singleton.1 hv ▸ h.2) fun _ _ h => h

theorem meets_invalidateAllLevels : (invalidateAllLevels u).Meets (fun _ => True)
    (fun _ s => s.world.Lacks [u]) fun _ _ => True :=
  meets_invalidateShared.bind fun _ => Act.meets_modify fun _ h => h

theorem keeps_invalidateAllLevels (u : UserId) :
    (invalidateAllLevels u).Keeps (·.world.Lacks users) := by
  have hdelete : (Scene.ask (World.deleteKey (persistentKey u))).Keeps (·.world.Lacks users) := by
    intro s hs
    rw [Scene.runFrom_ask, World.deleteKey, World.runFrom_request]
    split
    · exact hs
    · exact fun v hv => KeyValueStore.get_delete_of_none (hs v hv)
  refine Act.Keeps.bind ?_ fun _ => Act.keeps_modify fun _ h => h
  exact Act.Keeps.bind (Act.keeps_modify fun _ h => h) fun _ => hdelete.bind fun _ =>
    Act.Keeps.bind (Act.keeps_modify fun _ h => h) fun _ => Act.keeps_modify fun _ h => h

theorem keeps_invalidateEach (others : List UserId) :
    (invalidateEach others).Keeps (·.world.Lacks users) := by
  have hlog (e : Event) : (Scene.log e : Act Scene Error Unit).Keeps (·.world.Lacks users) :=
    Act.keeps_modify fun _ h => h
  induction others with
  | nil => exact Act.keeps_pure _
  | cons u others ih =>
    refine (keeps_invalidateAllLevels u).attempt.bind fun r => ?_
    split
    · exact ih.bind fun _ => Act.keeps_pure _
    · exact (hlog _).bind fun _ => ih.bind fun _ => Act.keeps_pure _

theorem meets_invalidateEach : (invalidateEach users).Meets (fun _ => True)
    (fun r s => r.2 = none → s.world.Lacks users) fun _ _ => True := by
  induction users with
  | nil => exact Act.meets_pure fun _ _ _ => nofun
  | cons u users ih =>
    have hfirst : ((invalidateAllLevels u).attempt : Act Scene Error _).Meets (fun _ => True)
        (fun r s => r = .ok () → s.world.Lacks [u]) fun _ _ => True :=
      Act.Meets.attempt (meets_invalidateAllLevels.mono (fun _ h => h) (fun _ _ h _ => h)
        fun _ _ _ => nofun)
    refine hfirst.bind fun r => ?_
    cases r with
    | ok _ =>
      have hrest : (invalidateEach users).Meets (·.world.Lacks [u])
          (fun r s => r.2 = none → s.world.Lacks (u :: users)) fun _ _ => True :=
        (ih.and_keeps (keeps_invalidateEach users)).mono (fun _ h => ⟨trivial, h⟩)
          (fun _ _ h hr => List.forall_mem_cons.2 ⟨h.2 u (List.mem_singleton_self u), h.1 hr⟩)
          fun _ _ _ => trivial
      exact (hrest.mono (fun _ h => h rfl) (fun _ _ h => h) fun _ _ h => h).bind fun _ =>
        Act.meets_pure fun _ h => h
    | error e =>
      exact Act.meets_true.bind fun _ => Act.meets_true.bind fun _ => Act.meets_pure fun _ _ => nofun

theorem meets_invalidateBatch : (invalidateBatch users).Meets (fun _ => True)
    (fun _ s => s.world.Lacks users) fun _ _ => True := by
  refine meets_invalidateEach.bind fun r => ?_
  refine Act.Meets.bind (R := fun _ s => r.2 = none → s.world.Lacks users)
    (Act.meets_modify fun _ h => h) fun _ => ?_
  obtain ⟨n, failure⟩ := r
  cases failure with
  | none => exact Act.meets_pure fun _ h => h rfl
  | some e => exact Act.meets_throw fun _ _ => trivial

end Operations

namespace Deployment

variable {users : List UserId}

theorem meets_runIn {i : Nat} {held : Held} {keep : Held → Deployment Obj → Deployment Obj}
    (hkeep : ∀ held d, (keep held d).world = d.world) {t : Engine Obj → Act Scene Failure Answer}
    (ht : ∀ e, (t e).Meets (fun _ => True) (fun _ s => s.world.Lacks users) fun _ _ => True) :
    (runIn i held keep t).Meets (fun _ => True) (fun _ d => d.world.Lacks users)
      fun _ _ => True := by
  intro d _
  simp only [runIn, Act.runFrom_ofFun]
  cases d.process? i with
  | none => trivial
  | some p =>
    have hends := ht p.engine (p.scene d.world held) trivial
    dsimp only
    generalize (t p.engine).runFrom (p.scene d.world held) = x at hends ⊢
    obtain ⟨r, s⟩ := x
    cases r with
    | error e => trivial
    | ok a =>
      show (keep _ _).world.Lacks users
      rw [hkeep]
      exact hends

variable [DomainObject Obj]

/-- A command that succeeds leaves nothing in the key-value store of the users whom it drops. -/
theorem meets_drops (c : Command Obj) : (perform c).Meets (fun _ => True)
    (fun _ d => d.world.Lacks c.drops) fun _ _ => True := by
  have hinvalidate (u : UserId) : (Cache.invalidate u).Meets (fun _ => True)
      (fun _ s => s.world.Lacks [u]) fun _ _ => True :=
    Act.meets_true.bind fun _ => Operations.meets_invalidateShared
  have hnobody (hc : c.drops = []) : (perform c).Meets (fun _ => True)
      (fun _ d => d.world.Lacks c.drops) fun _ _ => True := by
    rw [hc]
    exact Act.meets_true.mono (fun _ h => h) (fun _ _ _ => nofun) fun _ _ h => h
  have hprocess {i : Nat} {users : List UserId} {t : Engine Obj → Act Scene Failure Answer}
      (ht : ∀ e, (t e).Meets (fun _ => True) (fun _ s => s.world.Lacks users) fun _ _ => True) :
      (runInProcess i t).Meets (fun _ => True) (fun _ d => d.world.Lacks users)
        fun _ _ => True := by
    refine meets_runIn (fun _ _ => ?_) ht
    rfl
  cases c with
  | session name c =>
    cases c with
    | invalidate u =>
      refine Act.meets_true.bind fun d => ?_
      cases d.sessions.get? name with
      | none => exact Act.meets_throw fun _ _ => trivial
      | some s =>
        refine meets_runIn (fun _ _ => ?_) fun _ => (hinvalidate u).mapError.map
        rfl
    | _ => exact hnobody rfl
  | cache i holder c =>
    cases c with
    | invalidate u =>
      have hdrops (e : Engine Obj) : (CacheCommand.perform e (.invalidate u)).Meets
          (fun _ => True) (fun _ s => s.world.Lacks [u]) fun _ _ => True :=
        (hinvalidate u).bind fun _ => Act.meets_pure fun _ h => h
      refine Act.meets_true.bind fun d => meets_runIn (fun _ _ => ?_) fun e => (hdrops e).mapError
      rfl
    | _ => exact hnobody rfl
  | process i c =>
    show (c.perform i).Meets _ _ _
    cases c with
    | invalidateShared u =>
      exact hprocess fun _ => Operations.meets_invalidateShared.mapError.map
    | invalidateAll u =>
      exact hprocess fun _ => Operations.meets_invalidateAllLevels.mapError.map
    | invalidateBatch users =>
      exact hprocess fun _ => Operations.meets_invalidateBatch.mapError.map
    | _ => exact hnobody rfl
  | _ => exact hnobody rfl

end Deployment

end Clearance
