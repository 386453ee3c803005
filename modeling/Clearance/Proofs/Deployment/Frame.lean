import Clearance.Proofs.Deployment.Steps
import Clearance.Proofs.Deployment.Store
import Clearance.Proofs.Invariant.Deployment

/-! What single commands do. No command starts or ends a process, a command on roles replaces the
assignments, and a successful invalidation leaves nothing of the user in the lower tiers. -/
namespace Clearance

variable {Obj α : Type}

namespace Deployment

def processCount (d : Deployment Obj) : Nat := d.processes.length

theorem eq_zero_of_process? {d : Deployment Obj} (hone : d.processCount = 1) {i : Nat}
    {p : Process Obj} (hp : d.process? i = some p) : i = 0 := by
  have hlt : i < d.processes.length := by
    by_cases hlt : i < d.processes.length
    · exact hlt
    · have hnone : d.processes[i]? = none := List.getElem?_eq_none (by omega)
      rw [process?, hnone] at hp
      cases hp
  have hone : d.processes.length = 1 := hone
  omega

section Engines

def engines (d : Deployment Obj) : List (Option (Engine Obj)) :=
  d.processes.map (·.map (·.engine))

theorem length_engines (d : Deployment Obj) : d.engines.length = d.processCount :=
  List.length_map _

theorem getElem?_engines (d : Deployment Obj) (i : Nat) :
    d.engines[i]?.join = (d.process? i).map (·.engine) := by
  rw [engines, List.getElem?_map, process?]
  cases d.processes[i]? <;> rfl

theorem engines_set {d : Deployment Obj} {i : Nat} {p q : Process Obj}
    (hp : d.process? i = some p) (hq : q.engine = p.engine) :
    engines { d with processes := d.processes.set i (some q) } = d.engines := by
  rw [engines, List.map_set]
  refine List.ext_getElem? fun j => ?_
  by_cases hj : i = j
  · subst hj
    have hi : d.processes[i]? = some (some p) := Option.join_eq_some_iff.1 hp
    obtain ⟨hlt, -⟩ := List.getElem?_eq_some_iff.1 hi
    have hlt' : i < (d.processes.map (·.map (·.engine))).length := by rwa [List.length_map]
    rw [List.getElem?_set_self hlt', engines, List.getElem?_map, hi, Option.map_some,
      Option.map_some, Option.map_some, hq]
  · rw [List.getElem?_set_ne hj]
    rfl

theorem leaves_runIn {i : Nat} {held : Held} {keep : Held → Deployment Obj → Deployment Obj}
    (hkeep : ∀ held d, (keep held d).engines = d.engines)
    (t : Engine Obj → Act Scene Failure α) : (runIn i held keep t).Leaves engines := by
  intro d
  simp only [runIn, Act.runFrom_ofFun]
  cases hp : d.process? i with
  | none => rfl
  | some p =>
    let s := ((t p.engine).runFrom (p.scene d.world held)).2
    have hsame := engines_set (q := p.after s) hp rfl
    exact (hkeep _ _).trans hsame

theorem leaves_get : (get : Act (Deployment Obj) Failure _).Leaves engines := fun _ => rfl

variable [DomainObject Obj]

theorem engines_steps : Steps (fun (_ : Engine Obj) _ => True) (fun _ => True)
    fun t => t.Leaves engines where
  ofExcept := Act.leaves_ofExcept
  bind := Act.Leaves.bind
  find _ _ := rfl
  savedContext name := by
    refine leaves_get.bind fun d => ?_
    cases d.saved.get? name with
    | none => exact Act.leaves_throw _
    | some c => exact Act.leaves_pure _
  save name c := Act.leaves_modify fun d => by cases name <;> rfl
  onWorld _ _ := rfl
  runInProcess _ := leaves_runIn (fun _ _ => rfl) _
  runInSession {name _} _ _ := by
    refine leaves_get.bind fun d => ?_
    cases d.sessions.get? name with
    | none => exact Act.leaves_throw _
    | some s =>
      refine leaves_runIn (fun _ _ => ?_) _
      rfl
  runWithHolder _ := by
    refine leaves_get.bind fun _ => leaves_runIn (fun _ _ => ?_) _
    rfl
  runOnGuide {name _} _ d := by
    simp only [runOnGuide, Act.runFrom_ofFun]
    cases d.guides.get? name <;> rfl
  state _ := rfl
  openSession i _ := by
    refine leaves_get.bind fun d => ?_
    cases d.process? i with
    | none => exact Act.leaves_throw _
    | some p => exact Act.Leaves.bind (Act.leaves_modify fun _ => rfl) fun _ => Act.leaves_pure _
  closeSession _ _ := rfl
  makeGuide _ _ _ _ := rfl
  holding _ _ _ := rfl

/-- No command makes an engine or gives one up. -/
theorem engines_step (d : Deployment Obj) (c : Command Obj) : (d.step c).2.engines = d.engines :=
  engines_steps.perform (c := c) c.upholds_true (fun _ _ => trivial) d

theorem processCount_step (d : Deployment Obj) (c : Command Obj) :
    (d.step c).2.processCount = d.processCount := by
  rw [← length_engines, engines_step, length_engines]

/-- A process keeps its engine for good. -/
theorem engine_step (d : Deployment Obj) (c : Command Obj) (i : Nat) :
    ((d.step c).2.process? i).map (·.engine) = (d.process? i).map (·.engine) := by
  rw [← getElem?_engines, engines_step, getElem?_engines]

end Engines

section Settle

variable {d : Deployment Obj} {i : Nat} {p : Process Obj}

/-- The deployment after a process has left a scene like this, for none of its sessions. -/
def settle (d : Deployment Obj) (i : Nat) (p : Process Obj) (t : Scene) : Deployment Obj :=
  { d with world := t.world, processes := d.processes.set i (some (p.after t)) }

variable (hp : d.process? i = some p)

include hp

theorem process?_settle (t : Scene) (j : Nat) :
    (d.settle i p t).process? j = if j = i then some (p.after t) else d.process? j := by
  show (d.processes.set i (some (p.after t)))[j]?.join = _
  split
  · next hj =>
    have hi : d.processes[i]? = some (some p) := Option.join_eq_some_iff.1 hp
    obtain ⟨hlt, -⟩ := List.getElem?_eq_some_iff.1 hi
    rw [hj, List.getElem?_set_self hlt]
    rfl
  · next hj =>
    rw [List.getElem?_set_ne (Ne.symm hj)]
    rfl

theorem process?_settle_self (t : Scene) : (d.settle i p t).process? i = some (p.after t) := by
  rw [process?_settle hp, if_pos rfl]

theorem runFrom_runInProcess {β : Type} {t : Engine Obj → Act Scene Error β} (f : β → α)
    {r : Except Error β} {s : Scene}
    (hrun : (t p.engine).runFrom (p.scene d.world .empty) = (r, s)) :
    (runInProcess i fun e => f <$> (t e).mapError Failure.engine).runFrom d =
      ((r.mapError .engine).map f, d.settle i p s) := by
  simp only [runInProcess, runIn, Act.runFrom_ofFun, hp, Act.runFrom_map, Act.runFrom_mapError,
    hrun]
  rfl

end Settle

/-- A command on roles replaces the assignments and does nothing else. -/
theorem exists_reassigned [DomainObject Obj] (d : Deployment Obj) {c : StoreCommand}
    (hc : c.changesRoles = true) :
    ∃ a, (d.step (.store c)).2 = { d with world := { d.world with assignments := a } } ∧
      ∀ u, u ∉ c.affected a → a.load u = d.world.assignments.load u := by
  obtain ⟨a, hworld, hload⟩ := c.exists_assignments hc d.world
  refine ⟨a, ?_, hload⟩
  show { d with world := (c.perform.runFrom d.world).2 } = _
  rw [hworld]

end Deployment

section Invalidate

def Scene.Lacks (s : Scene) (u : UserId) : Prop :=
  s.shared.get? (sharedKey u) = none ∧ s.world.keyValues.get (persistentKey u) = none

theorem Cache.meets_invalidateShared (u : UserId) : (invalidateShared u).Meets (fun _ => True)
    (fun _ s => s.Lacks u) fun _ _ => True := by
  let R (s : Scene) := s.shared.get? (sharedKey u) = none
  refine Act.Meets.bind (R := fun _ => R)
    (Act.meets_modify fun s _ => SortedMap.get?_erase_self ..) fun _ => ?_
  refine Act.Meets.bind (R := fun _ s => s.Lacks u) ?_ fun _ => ?_
  · unfold Scene.ask Scene.onAtlas
    refine Act.Meets.on (fun _ => rfl) fun s => Atlas.meets_ask fun root => ?_
    refine World.meets_request (fun _ _ _ => trivial) fun w hw => ⟨hw, ?_⟩
    exact KeyValueStore.get_delete_self ..
  · exact Act.Meets.bind (R := fun _ s => s.Lacks u) (Act.meets_modify fun _ h => h)
      fun _ => Act.meets_modify fun _ h => h

/-- After an invalidation that succeeded, neither the process nor the key-value store has anything
of the user. -/
theorem Deployment.lacks_of_invalidate [DomainObject Obj] {d : Deployment Obj} {i : Nat}
    {u : UserId} (h : (d.step (.process i (.invalidateShared u))).1.1.isOk = true) :
    (∀ {p}, (d.step (.process i (.invalidateShared u))).2.process? i = some p →
      p.shared.get? (sharedKey u) = none) ∧
    (d.step (.process i (.invalidateShared u))).2.world.keyValues.get (persistentKey u) = none := by
  let t : Act (Deployment Obj) Failure Answer := perform (.process i (.invalidateShared u))
  have hmeets : t.Meets (fun _ => True) (fun _ d => (∀ {p}, d.process? i = some p →
      p.shared.get? (sharedKey u) = none) ∧ d.world.keyValues.get (persistentKey u) = none)
      fun _ _ => True := by
    intro d _
    simp only [t, perform, ProcessCommand.perform, runInProcess, runIn, Act.runFrom_ofFun]
    cases hp : d.process? i with
    | none => trivial
    | some p =>
      have hlacks := Cache.meets_invalidateShared u (p.scene d.world .empty) trivial
      simp only [Act.runFrom_map, Act.runFrom_mapError]
      generalize (Cache.invalidateShared u).runFrom (p.scene d.world .empty) = x at hlacks
      obtain ⟨r, s⟩ := x
      cases r with
      | error e => trivial
      | ok _ =>
        refine ⟨fun hq => ?_, hlacks.2⟩
        rcases process?_set hp hq with ⟨-, rfl⟩ | ⟨hne, -⟩
        · exact hlacks.1
        · exact absurd rfl hne
  exact hmeets.of_isOk trivial h

end Invalidate

end Clearance
