import Clearance.Proofs.Deployment.Touching

/-! What one session sees along a run. A condition on the tiers below it and on what it holds is
kept by its own commands if the operations of its process keep it, and by the others if they keep
the part on the tiers. -/
namespace Clearance

variable {Obj : Type}

namespace Deployment

/-- If the session is open, its process runs and the condition holds of what the session sees. -/
def Sees (J : Engine Obj → Scene → Prop) (name : String) (d : Deployment Obj) : Prop :=
  ∀ s, d.sessions.get? name = some s →
    ∃ p, d.process? s.process = some p ∧ J p.engine (p.scene d.world s.held)

/-- The condition on what a session sees is one on the tiers below it and another one on what it
holds, which is true of nothing. -/
structure Layers (T J : Engine Obj → Scene → Prop) : Prop where
  fresh {e : Engine Obj} {s : Scene} : T e s → J e { s with held := .empty }
  join {e : Engine Obj} {s s' : Scene} : J e s → T e s' → J e { s' with held := s.held }

variable {J J' T : Engine Obj → Scene → Prop} {d d' : Deployment Obj} {name : String} {x : Session}
  {p : Process Obj}

theorem runFrom_runInSession_leave {α : Type} (hx : d.sessions.get? name = some x)
    (hp : d.process? x.process = some p) (t : Engine Obj → Act Scene Failure α) :
    (runInSession name t).runFrom d = (((t p.engine).runFrom (p.scene d.world x.held)).1,
      d.leave name x p ((t p.engine).runFrom (p.scene d.world x.held)).2) := by
  rw [runInSession, Act.runFrom_bind_ok (Act.runFrom_get d), hx]
  simp only [runIn, Act.runFrom_ofFun, hp]
  rfl

theorem runFrom_runInSession_none {α : Type} (hx : d.sessions.get? name = none)
    (t : Engine Obj → Act Scene Failure α) :
    (runInSession name t).runFrom d = (.error (.unknownName name), d) := by
  rw [runInSession, Act.runFrom_bind_ok (Act.runFrom_get d), hx]
  rfl

/-- What a session gets an answer to has been asked in the scene that it sees. -/
theorem leave_of_runInSession {α : Type} {t : Engine Obj → Act Scene Failure α} {a : α}
    (h : ((runInSession name t).runFrom d).1 = .ok a) :
    ∃ x p s, d.sessions.get? name = some x ∧ d.process? x.process = some p ∧
      (t p.engine).runFrom (p.scene d.world x.held) = (.ok a, s) ∧
      ((runInSession name t).runFrom d).2 = d.leave name x p s := by
  cases hx : d.sessions.get? name with
  | none =>
    rw [runFrom_runInSession_none hx] at h
    cases h
  | some x =>
    cases hp : d.process? x.process with
    | none =>
      rw [runInSession, Act.runFrom_bind_ok (Act.runFrom_get d), hx] at h
      simp only [runIn, Act.runFrom_ofFun, hp] at h
      cases h
    | some p =>
      rw [runFrom_runInSession_leave hx hp] at h ⊢
      exact ⟨x, p, _, rfl, hp, Prod.ext h rfl, rfl⟩

theorem sees_leave (hp : d.process? x.process = some p) {t : Scene} (ht : J p.engine t) :
    (d.leave name x p t).Sees J name := by
  intro s hs
  obtain rfl : s = ⟨x.process, t.held⟩ :=
    Option.some.inj (hs.symm.trans (SortedMap.get?_insert_self ..))
  refine ⟨p.after t, ?_, ht⟩
  rw [process?_leave hp, if_pos rfl]

namespace Sees

theorem keeps_runInSession {α : Type} {t : Engine Obj → Act Scene Failure α}
    (ht : ∀ e, (t e).Keeps (J e)) : (runInSession name t).Keeps (Sees J name) := by
  intro d hd
  cases hx : d.sessions.get? name with
  | none =>
    rw [runFrom_runInSession_none hx]
    exact hd
  | some x =>
    obtain ⟨p, hp, hJ⟩ := hd x hx
    rw [runFrom_runInSession_leave hx hp]
    exact sees_leave hp (ht p.engine _ hJ)

theorem carry (h : d.Sees J name) (hsession : d'.sessions.get? name = d.sessions.get? name)
    (hengine : ∀ i, (d'.process? i).map (·.engine) = (d.process? i).map (·.engine))
    (htiers : ∀ {i p}, d'.process? i = some p → T p.engine (p.scene d'.world .empty))
    (hjoin : ∀ {e s s'}, J e s → T e s' → J' e { s' with held := s.held }) : d'.Sees J' name := by
  intro s hs
  obtain ⟨p, hp, hJ⟩ := h s (hsession.symm.trans hs)
  have hsame := hengine s.process
  rw [hp] at hsame
  obtain ⟨p', hp', he⟩ := Option.map_eq_some_iff.1 hsame
  have hJ : J p'.engine (p.scene d.world s.held) := he ▸ hJ
  exact ⟨p', hp', hjoin hJ (htiers hp')⟩

/-- What the session is told is what its engine answers in the scene that it sees. -/
theorem answer {β : Type} {t : Engine Obj → Act Scene Error β} {f : β → Answer} {Q : β → Prop}
    (h : d.Sees J name) (ht : ∀ e, (t e).Meets (J e) (fun b _ => Q b) fun _ _ => True)
    {answer : Answer} (hrun : ((runInSession name fun e =>
      f <$> (t e).mapError Failure.engine).runFrom d).1 = .ok answer) :
    ∃ b, Q b ∧ f b = answer := by
  obtain ⟨x, p, s, hx, hp, hasked, -⟩ := leave_of_runInSession hrun
  obtain ⟨p', hp', hJ⟩ := h x hx
  cases hp.symm.trans hp'
  rw [Act.runFrom_map, Act.runFrom_mapError] at hasked
  obtain ⟨b, hb, hanswer⟩ := Except.map_eq_ok.1 (Prod.mk.inj hasked).1
  exact ⟨b, (ht p.engine).ok hJ (Prod.ext (Except.mapError_eq_ok.1 hb) rfl), hanswer⟩

variable [DomainObject Obj] (hlayers : Layers T J)
  (htiers : ∀ {i p}, d.process? i = some p → T p.engine (p.scene d.world .empty))

include hlayers htiers

theorem of_open {i : Nat} (hp : d.process? i = some p) :
    (d.step (.openSession name i)).2.Sees J name := by
  have hstep : (perform (.openSession name i)).runFrom d =
      (.ok .nothing, { d with sessions := d.sessions.insert name ⟨i, .empty⟩ }) := by
    rw [perform, Act.runFrom_bind_ok (Act.runFrom_get d), hp]
    rfl
  show ((perform (.openSession name i)).runFrom d).2.Sees J name
  rw [hstep]
  intro s hs
  obtain rfl : s = ⟨i, .empty⟩ := Option.some.inj (hs.symm.trans (SortedMap.get?_insert_self ..))
  exact ⟨p, hp, hlayers.fresh (htiers hp)⟩

/-- Whatever is done, the session goes on to see what it saw if the tiers are kept and, for its own
commands, what it holds. -/
theorem step (h : d.Sees J name) {c : Command Obj}
    (htiers' : ∀ {i p}, (d.step c).2.process? i = some p →
      T p.engine (p.scene (d.step c).2.world .empty))
    (hown : ∀ c', c = .session name c' → c.Observes J) : (d.step c).2.Sees J name := by
  cases hc : c.concerns name with
  | false => exact h.carry (session_step d hc) (engine_step d c) htiers' hlayers.join
  | true =>
    cases c with
    | openSession n i =>
      obtain rfl : n = name := of_decide_eq_true hc
      cases hp : d.process? i with
      | some p => exact of_open hlayers htiers hp
      | none =>
        have hstep : (perform (.openSession n i)).runFrom d = (.error .noProcess, d) := by
          rw [perform, Act.runFrom_bind_ok (Act.runFrom_get d), hp]
          rfl
        show ((perform (.openSession n i)).runFrom d).2.Sees J n
        rw [hstep]
        exact h
    | closeSession n =>
      obtain rfl : n = name := of_decide_eq_true hc
      intro s hs
      exact absurd rfl (SortedMap.get?_of_erase hs).1
    | session n c' =>
      obtain rfl : n = name := of_decide_eq_true hc
      exact c'.perform_of (P := fun t => t.Keeps (Sees J n)) (hown c' rfl) Act.Keeps.bind
        (fun _ _ h => h) keeps_runInSession d h
    | _ => cases hc

end Sees

end Deployment

end Clearance
