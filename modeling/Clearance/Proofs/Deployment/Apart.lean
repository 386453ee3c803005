import Clearance.Proofs.Deployment.Steps

/-! Sessions apart from each other. What a session holds shows in no command that is about other
sessions, and no such command changes it. -/
namespace Clearance

variable {Obj : Type}

namespace Deployment

/-- The deployments are alike in everything but the session of this name, and here are the sessions
of that name. -/
structure Differ (name : String) (x y : Option Session) (d e : Deployment Obj) : Prop where
  rest : e = { d with sessions := e.sessions }
  others {n : String} : n ≠ name → e.sessions.get? n = d.sessions.get? n
  left : d.sessions.get? name = x
  right : e.sessions.get? name = y

namespace Differ

variable {name : String} {x y : Option Session} {d e : Deployment Obj}

theorem self (d : Deployment Obj) (name : String) :
    Differ name (d.sessions.get? name) (d.sessions.get? name) d d := ⟨rfl, fun _ => rfl, rfl, rfl⟩

theorem beside (h : Differ name x y d e) {f : Deployment Obj → Deployment Obj}
    (hf : ∀ (d : Deployment Obj) sessions, f { d with sessions } = { f d with sessions })
    (hsame : ∀ d, (f d).sessions = d.sessions) : Differ name x y (f d) (f e) where
  rest := by
    rw [hsame, ← hf, ← h.rest]
  others hn := by
    rw [hsame, hsame]
    exact h.others hn
  left := by
    rw [hsame]
    exact h.left
  right := by
    rw [hsame]
    exact h.right

theorem insert (h : Differ name x y d e) {n : String} (hn : n ≠ name) (s : Session) :
    Differ name x y { d with sessions := d.sessions.insert n s }
      { e with sessions := e.sessions.insert n s } where
  rest := by rw [h.rest]
  others {m} hm := by
    by_cases hmn : m = n
    · rw [hmn, SortedMap.get?_insert_self, SortedMap.get?_insert_self]
    · rw [SortedMap.get?_insert_of_ne _ _ hmn, SortedMap.get?_insert_of_ne _ _ hmn, h.others hm]
  left := (SortedMap.get?_insert_of_ne _ _ hn.symm).trans h.left
  right := (SortedMap.get?_insert_of_ne _ _ hn.symm).trans h.right

theorem erase (h : Differ name x y d e) {n : String} (hn : n ≠ name) :
    Differ name x y { d with sessions := d.sessions.erase n }
      { e with sessions := e.sessions.erase n } where
  rest := by rw [h.rest]
  others {m} hm := by
    by_cases hmn : m = n
    · rw [hmn, SortedMap.get?_erase_self, SortedMap.get?_erase_self]
    · rw [SortedMap.get?_erase_of_ne _ hmn, SortedMap.get?_erase_of_ne _ hmn, h.others hm]
  left := (SortedMap.get?_erase_of_ne _ hn.symm).trans h.left
  right := (SortedMap.get?_erase_of_ne _ hn.symm).trans h.right

end Differ

section Respects

variable {name : String} {x y : Option Session} {α : Type}

theorem respects_get_bind {f : Deployment Obj → Act (Deployment Obj) Failure α}
    (hsame : ∀ {d e}, Differ name x y d e → f e = f d)
    (hf : ∀ d, (f d).Respects (Differ name x y)) :
    ((get : Act (Deployment Obj) Failure _) >>= f).Respects (Differ name x y) := by
  intro d e h
  rw [Act.runFrom_bind_ok (Act.runFrom_get d), Act.runFrom_bind_ok (Act.runFrom_get e), hsame h]
  exact hf d d e h

theorem respects_runIn {i : Nat} {held : Held} {keep : Held → Deployment Obj → Deployment Obj}
    (hkeep : ∀ held {d e}, Differ name x y d e → Differ name x y (keep held d) (keep held e))
    (t : Engine Obj → Act Scene Failure α) : (runIn i held keep t).Respects (Differ name x y) := by
  intro d e h
  have hprocess : e.process? i = d.process? i := by
    rw [h.rest]
    rfl
  have hworld : e.world = d.world := by rw [h.rest]
  have hprocesses : e.processes = d.processes := by rw [h.rest]
  simp only [runIn, Act.runFrom_ofFun, hprocess, hworld, hprocesses]
  cases d.process? i with
  | none => exact ⟨rfl, h⟩
  | some p =>
    let s := ((t p.engine).runFrom (p.scene d.world held)).2
    let f (e : Deployment Obj) : Deployment Obj :=
      { e with world := s.world, processes := d.processes.set i (some (p.after s)) }
    exact ⟨rfl, hkeep s.held (h.beside (f := f) (fun _ _ => rfl) fun _ => rfl)⟩

theorem respects_onWorld (t : Act World Failure α) :
    (onWorld t).Respects (Differ name x y : Deployment Obj → Deployment Obj → Prop) := by
  intro d e h
  have hworld : e.world = d.world := by rw [h.rest]
  let f (e : Deployment Obj) : Deployment Obj := { e with world := (t.runFrom d.world).2 }
  rw [onWorld, Act.runFrom_on, Act.runFrom_on, hworld]
  exact ⟨rfl, h.beside (f := f) (fun _ _ => rfl) fun _ => rfl⟩

theorem respects_runOnGuide (n : String) (t : Resolver → Act Atlas Error α) :
    (runOnGuide n t).Respects (Differ name x y : Deployment Obj → Deployment Obj → Prop) := by
  intro d e h
  have hworld : e.world = d.world := by rw [h.rest]
  have hguides : e.guides = d.guides := by rw [h.rest]
  simp only [runOnGuide, Act.runFrom_ofFun, hworld, hguides]
  cases d.guides.get? n with
  | none => exact ⟨rfl, h⟩
  | some g =>
    let a := ((t g.resolver).runFrom ⟨d.world, g.root⟩).2
    let f (e : Deployment Obj) : Deployment Obj :=
      { e with world := a.world, guides := d.guides.insert n { g with root := a.root } }
    exact ⟨rfl, h.beside (f := f) (fun _ _ => rfl) fun _ => rfl⟩

variable [DomainObject Obj]

theorem differ_steps : Steps (fun (_ : Engine Obj) _ => True) (fun n => n ≠ name)
    fun t => t.Respects (Differ name x y) where
  ofExcept := Act.respects_ofExcept
  bind := Act.Respects.bind
  find r := by
    refine respects_get_bind (fun h => ?_) fun d => Act.respects_ofExcept _
    rw [h.rest]
    cases r <;> rfl
  savedContext n := by
    refine respects_get_bind (fun h => ?_) fun d => ?_
    · rw [h.rest]
    · cases d.saved.get? n with
      | some c => exact Act.respects_ofExcept (.ok c)
      | none => exact Act.respects_ofExcept (.error _)
  save n c := Act.respects_modify fun d e h => by
    cases n with
    | none => exact h
    | some n =>
      exact h.beside (f := fun d => { d with saved := d.saved.insert n c }) (fun _ _ => rfl)
        fun _ => rfl
  onWorld _ := respects_onWorld _
  runInProcess _ := respects_runIn (fun _ _ _ h => h) _
  runInSession {n t} hn _ := by
    refine respects_get_bind (fun h => ?_) fun d => ?_
    · simp only [h.others hn]
    · cases d.sessions.get? n with
      | none => exact Act.respects_ofExcept (.error _)
      | some s => exact respects_runIn (fun held _ _ h => h.insert hn ⟨s.process, held⟩) t
  runWithHolder {i n t} _ := by
    refine respects_get_bind (fun h => ?_) fun d => respects_runIn (fun held _ _ h => ?_) t
    · rw [h.rest]
    · exact h.beside (f := fun d => { d with holders := d.holders.insert n held })
        (fun _ _ => rfl) fun _ => rfl
  runOnGuide _ := respects_runOnGuide _ _
  state := by
    refine respects_get_bind (fun h => ?_) fun d => Act.respects_ofExcept (.ok _)
    rw [h.rest]
  openSession {n} i hn := by
    refine respects_get_bind (fun h => ?_) fun d => ?_
    · rw [h.rest]
      rfl
    · cases d.process? i with
      | none => exact Act.respects_ofExcept (.error _)
      | some p =>
        exact Act.Respects.bind (Act.respects_modify fun _ _ h => h.insert hn ⟨i, .empty⟩) fun _ =>
          Act.respects_ofExcept (.ok _)
  closeSession {n} hn d e h := by
    have hclose (d : Deployment Obj) : (perform (.closeSession n)).runFrom d =
        (.ok (.flag (d.sessions.contains n)), { d with sessions := d.sessions.erase n }) := rfl
    rw [hclose, hclose, SortedMap.contains, SortedMap.contains, h.others hn]
    exact ⟨rfl, h.erase hn⟩
  makeGuide n parents maxDepth := by
    let r : Resolver := ⟨.ofList parents, maxDepth⟩
    exact Act.Respects.bind (Act.respects_modify fun _ _ h => h.beside
      (f := fun d => { d with guides := d.guides.insert n ⟨r, none⟩ }) (fun _ _ => rfl)
        fun _ => rfl) fun _ => Act.respects_ofExcept (.ok _)
  holding n u := by
    refine respects_get_bind (fun h => ?_) fun d => Act.respects_ofExcept (.ok _)
    rw [h.rest]

/-- A command about other sessions has one answer and logs one list of events. -/
theorem Differ.step {d e : Deployment Obj} (h : Differ name x y d e) {c : Command Obj}
    (hc : c.concerns name = false) :
    (d.step c).1 = (e.step c).1 ∧ Differ name x y (d.step c).2 (e.step c).2 := by
  have hnames : ∀ n, c.concerns n = true → n ≠ name := by
    rintro n hn rfl
    cases hc.symm.trans hn
  obtain ⟨hr, hleft⟩ := differ_steps.perform c.upholds_true hnames d e h
  have hworld : e.world = d.world := by rw [h.rest]
  have hworld' : ((perform c).runFrom e).2.world = ((perform c).runFrom d).2.world := by
    rw [hleft.rest]
  refine ⟨Prod.ext hr ?_, hleft⟩
  show (((perform c).runFrom d).2.world.events.extract d.world.events.size).toList =
    (((perform c).runFrom e).2.world.events.extract e.world.events.size).toList
  rw [hworld, hworld']

theorem Differ.steps {d e : Deployment Obj} (h : Differ name x y d e) {cs : List (Command Obj)}
    (hcs : ∀ c ∈ cs, c.concerns name = false) :
    (Deployment.steps cs d).1 = (Deployment.steps cs e).1 ∧
      Differ name x y (Deployment.steps cs d).2 (Deployment.steps cs e).2 := by
  induction cs generalizing d e with
  | nil => exact ⟨rfl, h⟩
  | cons c cs ih =>
    rw [List.forall_mem_cons] at hcs
    obtain ⟨hanswer, hnext⟩ := h.step hcs.1
    obtain ⟨hanswers, hleft⟩ := ih hnext hcs.2
    exact ⟨List.cons_eq_cons.2 ⟨hanswer, hanswers⟩, hleft⟩

/-- No command about other sessions changes the session of this name. -/
theorem session_step (d : Deployment Obj) {c : Command Obj} (hc : c.concerns name = false) :
    (d.step c).2.sessions.get? name = d.sessions.get? name := ((Differ.self d name).step hc).2.left

end Respects

end Deployment

end Clearance
