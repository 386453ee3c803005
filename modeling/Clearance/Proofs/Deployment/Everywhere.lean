import Clearance.Proofs.Deployment.Frame
import Clearance.Proofs.Invariant.Vouched

/-! Conditions on every process. One that a process keeps whatever it is asked holds of every process
along the runs of a deployment, if it is about what processes do not share or if there is only one
process. -/
namespace Clearance

variable {Obj : Type}

/-- The condition is not about what a session holds, nor about the root that has been read. -/
structure Lasting (J : Engine Obj → Scene → Prop) : Prop where
  held {e : Engine Obj} {s : Scene} (h : Held) : J e s → J e { s with held := h }
  root {e : Engine Obj} {s : Scene} (c : Option Context) : J e s → J e { s with root := c }

namespace Deployment

/-- Each process satisfies the condition, and none can make another one violate it. -/
structure Everywhere (J : Engine Obj → Scene → Prop) (d : Deployment Obj) : Prop where
  each {i : Nat} {p : Process Obj} : d.process? i = some p → J p.engine (p.scene d.world .empty)
  alone : d.processCount = 1 ∨ ∀ {e : Engine Obj} {s : Scene} (w : World), J e s →
    J e { s with world := w }

variable {J : Engine Obj → Scene → Prop} {d : Deployment Obj} {α : Type}

namespace Everywhere

theorem of_same {d' : Deployment Obj} (h : Everywhere J d) (hw : d'.world = d.world)
    (hp : d'.processes = d.processes) : Everywhere J d' where
  each {i p} hi := by
    rw [process?, hp] at hi
    rw [hw]
    exact h.each hi
  alone := by
    rw [processCount, hp]
    exact h.alone

theorem after (h : Everywhere J d) (hJ : Lasting J) {i : Nat} {p : Process Obj}
    (hp : d.process? i = some p) {s : Scene} (hs : J p.engine s) :
    Everywhere J
      { d with world := s.world, processes := d.processes.set i (some (p.after s)) } where
  each {j q} hq := by
    rcases process?_set hp hq with ⟨-, rfl⟩ | ⟨hne, hq⟩
    · exact hJ.held .empty hs
    · rcases h.alone with hone | hworld
      · exact absurd ((eq_zero_of_process? hone hq).trans (eq_zero_of_process? hone hp).symm) hne
      · exact hworld s.world (h.each hq)
  alone := h.alone.imp_left fun hone => (List.length_set ..).trans hone

theorem reworld (h : Everywhere J d) {w : World}
    (hw : ∀ {i p}, d.process? i = some p → J p.engine (p.scene d.world .empty) →
      J p.engine (p.scene w .empty)) : Everywhere J { d with world := w } :=
  ⟨fun hp => hw hp (h.each hp), h.alone⟩

theorem evict (h : Everywhere J d) (hJ : Lasting J)
    (herase : ∀ {e s} key, J e s → J e { s with shared := s.shared.erase key }) (i : Nat)
    (key : String) : Everywhere J (d.evict i key) := by
  unfold Deployment.evict
  cases hp : d.process? i with
  | none => exact h
  | some p => exact h.after hJ hp (herase key (h.each hp))

end Everywhere

section Steps

variable (hJ : Lasting J)

include hJ

theorem keeps_runIn {i : Nat} {held : Held} {keep : Held → Deployment Obj → Deployment Obj}
    (hkeep : ∀ held d, (keep held d).world = d.world ∧ (keep held d).processes = d.processes)
    {t : Engine Obj → Act Scene Failure α} (ht : ∀ e, (t e).Keeps (J e)) :
    (runIn i held keep t).Keeps (Everywhere J) := by
  intro d hd
  simp only [runIn, Act.runFrom_ofFun]
  cases hp : d.process? i with
  | none => exact hd
  | some p =>
    have hs := ht p.engine _ (hJ.held held (hd.each hp))
    exact (hd.after hJ hp hs).of_same (hkeep ..).1 (hkeep ..).2

theorem keeps_runOnGuide {name : String} {t : Resolver → Act Atlas Error α}
    (ht : ∀ e r, (Scene.onAtlas (t r)).Keeps (J e)) :
    (runOnGuide name t).Keeps (Everywhere J) := by
  intro d hd
  simp only [runOnGuide, Act.runFrom_ofFun]
  cases d.guides.get? name with
  | none => exact hd
  | some g =>
    have hleft := hd.reworld (w := ((t g.resolver).runFrom ⟨d.world, g.root⟩).2.world)
      fun {i p} _ hs => hJ.root p.root (ht p.engine g.resolver _ (hJ.root g.root hs))
    exact hleft.of_same rfl rfl

variable [DomainObject Obj]

/-- A condition that is kept in every process is kept by commands. -/
theorem everywhere_steps : Steps J (fun _ => True) fun t => t.Keeps (Everywhere J) where
  ofExcept := Act.keeps_ofExcept
  bind := Act.Keeps.bind
  find _ _ h := h
  savedContext name := by
    refine Act.keeps_get.bind fun d => ?_
    cases d.saved.get? name with
    | none => exact Act.keeps_throw _
    | some c => exact Act.keeps_pure _
  save name c := Act.keeps_modify fun d h => by
    cases name with
    | none => exact h
    | some name => exact h.of_same rfl rfl
  onWorld ht d hd := hd.reworld fun {i p} _ hs => ht p.engine _ hs
  runInProcess ht := keeps_runIn hJ (fun _ _ => ⟨rfl, rfl⟩) ht
  runInSession {name t} _ ht := by
    refine Act.keeps_get.bind fun d => ?_
    cases d.sessions.get? name with
    | none => exact Act.keeps_throw _
    | some s =>
      refine keeps_runIn hJ (fun _ _ => ?_) ht
      exact ⟨rfl, rfl⟩
  runWithHolder ht := by
    refine Act.keeps_get.bind fun _ => keeps_runIn hJ (fun _ _ => ?_) ht
    exact ⟨rfl, rfl⟩
  runOnGuide ht := keeps_runOnGuide hJ ht
  state _ h := h
  openSession i _ := by
    refine Act.keeps_get.bind fun d => ?_
    cases d.process? i with
    | none => exact Act.keeps_throw _
    | some p =>
      exact Act.Keeps.bind (Act.keeps_modify fun _ h => h.of_same rfl rfl) fun _ =>
        Act.keeps_pure _
  closeSession _ _ h := h.of_same rfl rfl
  makeGuide _ _ _ _ h := h.of_same rfl rfl
  holding _ _ _ h := h

theorem Everywhere.step (h : Everywhere J d) {c : Command Obj} (hc : c.Upholds J) :
    Everywhere J (d.step c).2 := (everywhere_steps hJ).perform hc (fun _ _ => trivial) d h

end Steps

end Deployment

end Clearance
