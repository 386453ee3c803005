import Clearance.Proofs.Object
import Clearance.Proofs.Operations.Dropping
import Clearance.Proofs.Operations.Moves
import Clearance.Proofs.Session.Lookup

/-! What is counted along a run of requests. Every look-up that is answered is counted once, and what
is not found is loaded once; a user that has been dropped is loaded by the next session that looks it
up and does not hold it. -/
namespace Clearance

namespace Counters

theorem ofLookUps_add (a b : Counters) : (a + b).ofLookUps = a.ofLookUps + b.ofLookUps := rfl

variable (r : Except Error (Option (Snapshot × Tier)))

theorem ofLookUps_ofLookUp : (ofLookUp r).ofLookUps = ofLookUp r :=
  match r with
  | .error _ | .ok none => rfl
  | .ok (some (_, .request)) | .ok (some (_, .shared)) | .ok (some (_, .persistent)) => rfl

theorem lookups_ofLookUp : (ofLookUp r).requestHits + (ofLookUp r).lookups =
    if r.isOk then 1 else 0 :=
  match r with
  | .error _ | .ok none => rfl
  | .ok (some (_, .request)) | .ok (some (_, .shared)) | .ok (some (_, .persistent)) => rfl

end Counters

namespace Service

variable {Obj : Type} (v : Service Obj) (u : UserId) (s : Scene)

theorem counters_reload : (v.reload u).Leaves Scene.counters := by
  refine Act.Leaves.bind (fun _ => rfl) fun p => Act.Leaves.bind ?_ fun _ => fun _ => rfl
  refine Act.Leaves.bind (fun _ => rfl) fun _ => Act.Leaves.bind ?_ fun _ => fun _ => rfl
  exact Act.leaves_modify fun s => by split <;> rfl

/-- To see a snapshot is counted as the look-up of it. -/
theorem counters_snapshot : ((v.snapshot u).runFrom s).2.counters =
    s.counters + .ofLookUp ((Cache.lookUp v.cache u).runFrom s).1 := by
  have hlook := Cache.tells_lookUp v.cache u s
  cases hf : (Cache.lookUp v.cache u).runFrom s with
  | mk found t =>
  rw [hf] at hlook
  cases found with
  | error e =>
    rw [show (v.snapshot u).runFrom s = (.error e, t) from Act.runFrom_bind_error hf _]
    exact hlook
  | ok found =>
    cases found with
    | some x =>
      rw [show (v.snapshot u).runFrom s = (.ok x.1, t) from Act.runFrom_bind_ok hf _]
      exact hlook
    | none =>
      rw [runFrom_snapshot_of_missed hf]
      exact (v.counters_reload u t).trans hlook

/-- What is not found is loaded once, and nothing else is. -/
theorem loads_snapshot : ((v.snapshot u).runFrom s).2.world.callCount .loadAssignments =
    s.world.callCount .loadAssignments +
      (Counters.ofLookUp ((Cache.lookUp v.cache u).runFrom s).1).misses := by
  have hloads : (s.supplies.lookUp v.cache u).2.loads = s.supplies.loads := Supplies.loads_lookUp
  obtain ⟨p, tier, hfound, -, hlook⟩ | ⟨y, hmissed, hlook, hload⟩ | ⟨e, hrefused, -, -, hleft⟩ :=
    v.snapshot_cases u s
  · rw [hlook] at hloads
    rw [hfound]
    cases tier <;> exact hloads
  · rw [hlook] at hloads
    rw [hmissed]
    obtain ⟨e, -, hleft⟩ | ⟨rows, -, -, hput⟩ := hload
    · exact (congrArg Supplies.loads hleft).trans (congrArg (· + 1) hloads)
    · have hsame := Supplies.loads_put (c := v.cache) (u := u) (p := .ofRows rows)
        (x := y.noting .loadAssignments)
      rw [hput] at hsame
      exact hsame.trans (congrArg (· + 1) hloads)
  · rw [hrefused]
    exact congrArg Supplies.loads hleft

/-- What a session holds is not looked for, and where a look-up is refused nothing is cached. -/
theorem supplies_snapshot (h : s.held.get? u = none →
    ((Cache.lookUp v.cache u).runFrom s).1.isOk = false) :
    ((v.snapshot u).runFrom s).2.supplies = s.supplies := by
  cases hheld : s.held.get? u with
  | some p =>
    have hlook := Supplies.lookUp_of_held (x := s.supplies) v.cache hheld
    obtain ⟨_, _, -, -, hleft⟩ | ⟨_, -, hmissed, -⟩ | ⟨_, -, -, -, hleft⟩ := v.snapshot_cases u s
    · exact congrArg Prod.snd (hleft.symm.trans hlook)
    · cases hmissed.symm.trans hlook
    · exact hleft
  | none =>
    have hrefused := h hheld
    obtain ⟨_, _, hfound, -⟩ | ⟨_, hfound, -⟩ | ⟨_, -, -, -, hleft⟩ := v.snapshot_cases u s
    · rw [hfound] at hrefused
      cases hrefused
    · rw [hfound] at hrefused
      cases hrefused
    · exact hleft

end Service

namespace Cache

variable {Obj : Type}

theorem loads_invalidateShared (u : UserId) (s : Scene) :
    ((invalidateShared u).runFrom s).2.world.callCount .loadAssignments =
      s.world.callCount .loadAssignments := by
  have hdelete : (World.deleteKey (persistentKey u)).Leaves (·.callCount .loadAssignments) :=
    World.leaves_request (fun w => w.callCount_noting ..) fun _ => rfl
  have hask : (Scene.ask (World.deleteKey (persistentKey u))).Leaves
    (·.world.callCount .loadAssignments) := fun s => hdelete s.world
  exact Act.Leaves.bind (fun _ => rfl) (fun _ => hask.bind fun _ => fun _ => rfl) s

theorem leaves_shared_steps {c : CacheConfig} (hkeeps : c.sharedKeeps = false) (u : UserId) :
    Steps c u fun t => t.Leaves Scene.shared where
  ofExcept := Act.leaves_ofExcept
  bind := Act.Leaves.bind
  heldOf _ := rfl
  sharedOf _ := rfl
  hold _ := Act.leaves_modify fun _ => rfl
  share _ := Act.leaves_modify fun _ => by rw [if_neg (ne_true_of_eq_false hkeeps)]
  getKey _ := rfl
  setKey _ _ _ := rfl
  deleteKey _ := rfl
  loadAssignments _ := rfl
  counters _ := Act.leaves_modify fun _ => rfl
  count _ := Act.leaves_modify fun _ => rfl
  log _ := Act.leaves_modify fun _ => rfl

end Cache

namespace Move

variable {Obj : Type} {v : Service Obj} {s t : Scene} {u : UserId} {m : Move} {l : List Move}

theorem counts_after (m : Move) :
    (m.after v).counters.ofLookUps = m.scene.counters.ofLookUps + m.count v := by
  cases m with
  | lookUp u s =>
    rw [after, v.counters_snapshot, Counters.ofLookUps_add, Counters.ofLookUps_ofLookUp]
    rfl
  | drop u s =>
    rw [after, Cache.tells_invalidateShared, Counters.ofLookUps_add]
    cases ((Cache.invalidateShared u).runFrom s).1 <;> rfl

theorem loads_after (m : Move) : (m.after v).world.callCount .loadAssignments =
    m.scene.world.callCount .loadAssignments + (m.count v).misses := by
  cases m with
  | lookUp u s => exact v.loads_snapshot u s
  | drop u s => exact Cache.loads_invalidateShared u s

theorem lookups_count (m : Move) : (m.count v).requestHits + (m.count v).lookups =
    if m.answered v then 1 else 0 := by
  cases m with
  | lookUp u s => exact Counters.lookups_ofLookUp _
  | drop u s => rfl

theorem sharedHits_count (hshared : ∀ u, m.scene.shared.get? (sharedKey u) = none) :
    (m.count v).sharedHits = 0 := by
  cases m with
  | drop u s => rfl
  | lookUp u s =>
    have hlook := Cache.lookUp_supplies v.cache u s s rfl
    show (Counters.ofLookUp ((Cache.lookUp v.cache u).runFrom s).1).sharedHits = 0
    generalize (Cache.lookUp v.cache u).runFrom s = run at hlook
    match run, hlook with
    | (.error _, _), _ | (.ok none, _), _ => rfl
    | (.ok (some (_, .request)), _), _ | (.ok (some (_, .persistent)), _), _ => rfl
    | (.ok (some (p, .shared)), _), hlook =>
      have hfound := Supplies.shared_of_lookUp (congrArg Prod.fst hlook)
      cases hfound.symm.trans (hshared u)

theorem unshared_after (hkeeps : v.cache.sharedKeeps = false)
    (hshared : ∀ u, m.scene.shared.get? (sharedKey u) = none) (u : UserId) :
    (m.after v).shared.get? (sharedKey u) = none := by
  cases m with
  | lookUp w s =>
    have hleft : ((v.snapshot w).runFrom s).2.shared = s.shared :=
      (Cache.leaves_shared_steps hkeeps w).snapshot s
    rw [after, hleft]
    exact hshared u
  | drop w s =>
    obtain ⟨t, hdropped, -, hrun⟩ := Operations.invalidateShared_dropped w s
    rw [after, hrun]
    show t.shared.get? (sharedKey u) = none
    rw [hdropped.shared, SortedMap.get?_foldl_erase]
    split
    · rfl
    · exact hshared u

/-- A move caches nothing of a user who is not cached, unless a session that does not hold the user
gets an answer about it. -/
theorem lacks_after (hlacks : m.scene.Lacks u) (hm : ∀ s, m = .lookUp u s →
    s.held.get? u = none → m.answered v = false) : (m.after v).Lacks u := by
  cases m with
  | drop w s =>
    obtain ⟨t, hdropped, -, hrun⟩ := Operations.invalidateShared_dropped w s
    rw [after, hrun]
    exact hdropped.lacks hlacks
  | lookUp w s =>
    by_cases hw : u = w
    · subst hw
      have hleft := v.supplies_snapshot u s (hm s rfl)
      refine ⟨?_, ?_⟩
      · exact (congrArg (·.shared.get? (sharedKey u)) hleft).trans hlacks.1
      · exact (congrArg (·.keyValues.get (persistentKey u)) hleft).trans hlacks.2
    · have hspares : Scene.Spares w s ((v.snapshot w).runFrom s).2 :=
        (Scene.Spares.steps v.cache w s).snapshot s (.refl w s)
      exact hspares.lacks hw hlacks

def total (v : Service Obj) (l : List Move) : Counters := (l.map (count v)).sum

theorem total_cons (m : Move) (l : List Move) : total v (m :: l) = m.count v + total v l := by
  rw [total, List.map_cons, List.sum_cons, total]

namespace Path

/-- Along a path all look-ups are counted. -/
theorem counts (h : Path v s l t) :
    t.counters.ofLookUps = s.counters.ofLookUps + total v l := by
  induction h with
  | nil h => exact h.counts.trans (add_zero _).symm
  | @cons _ _ m l hdrifts _ ih =>
    rw [ih, counts_after, hdrifts.counts, total_cons, add_assoc]

theorem loads (h : Path v s l t) : t.world.callCount .loadAssignments =
    s.world.callCount .loadAssignments + (total v l).misses := by
  induction h with
  | nil h => exact h.loads
  | @cons _ _ m l hdrifts _ ih =>
    rw [ih, loads_after, hdrifts.loads, total_cons, Nat.add_assoc]
    rfl

theorem sharedHits (hkeeps : v.cache.sharedKeeps = false) (h : Path v s l t)
    (hshared : ∀ u, s.shared.get? (sharedKey u) = none) :
    (total v l).sharedHits = 0 := by
  induction h with
  | nil _ => rfl
  | @cons _ _ m l hdrifts _ ih =>
    have hscene (u : UserId) := hdrifts.shared u (hshared u)
    have hrest := ih (unshared_after hkeeps hscene)
    have hfirst := sharedHits_count (v := v) hscene
    rw [total_cons]
    show (m.count v).sharedHits + (total v l).sharedHits = 0
    rw [hfirst, hrest]

/-- Along a path a user is not cached until a session that does not hold it gets an answer. -/
theorem lacks (h : Path v s l t) (hlacks : s.Lacks u)
    (hl : ∀ r, .lookUp u r ∈ l → r.held.get? u = none → (lookUp u r).answered v = false) :
    t.Lacks u := by
  induction h with
  | nil h => exact ⟨h.shared u hlacks.1, h.keyValues u hlacks.2⟩
  | cons h _ ih =>
    refine ih (lacks_after ⟨h.shared u hlacks.1, h.keyValues u hlacks.2⟩ ?_)
      fun r hr => hl r (List.mem_cons_of_mem _ hr)
    rintro r rfl hheld
    exact hl r List.mem_cons_self hheld

/-- After a user has been dropped, a session that does not hold it misses it when it is the first to
get an answer, and loads it once. -/
theorem missed_of_dropped {l₁ l₂ l₃ : List Move} {r r' : Scene}
    (h : Path v s (l₁ ++ drop u r :: (l₂ ++ lookUp u r' :: l₃)) t)
    (hdrop : ((Cache.invalidateShared u).runFrom r).1 = .ok ())
    (hbetween : ∀ x, .lookUp u x ∈ l₂ → x.held.get? u = none → (lookUp u x).answered v = false)
    (hheld : r'.held.get? u = none) (hanswered : (lookUp u r').answered v = true) :
    ((Cache.lookUp v.cache u).runFrom r').1 = .ok none ∧
      ((v.snapshot u).runFrom r').2.world.callCount .loadAssignments =
        r'.world.callCount .loadAssignments + 1 := by
  obtain ⟨_, -, hafter⟩ := h.split
  cases hafter with
  | cons _ hafter =>
  obtain ⟨x, hpath, hlast⟩ := hafter.split
  cases hlast with
  | cons hdrifts _ =>
  have hdropped : ((drop u r).after v).Lacks u :=
    (Cache.meets_invalidateShared u).ok trivial (Prod.ext hdrop rfl)
  have hlacks := hpath.lacks hdropped hbetween
  have hlook := Supplies.lookUp_of_none (x := r'.supplies) v.cache hheld
    (hdrifts.shared u hlacks.1) (hdrifts.keyValues u hlacks.2)
  have hmissed : ((Cache.lookUp v.cache u).runFrom r').1 = .ok none := by
    obtain ⟨_, _, -, -, hfound⟩ | ⟨_, hmissed, -⟩ | ⟨_, hrefused, -⟩ := v.snapshot_cases u r'
    · cases hfound.symm.trans hlook
    · exact hmissed
    · rw [answered, hrefused] at hanswered
      cases hanswered
  refine ⟨hmissed, ?_⟩
  rw [v.loads_snapshot, hmissed]
  rfl

end Path

theorem lookups_total (v : Service Obj) (l : List Move) :
    (total v l).requestHits + (total v l).lookups =
      l.countP (answered v) := by
  induction l with
  | nil => rfl
  | cons m l ih =>
    have hfirst := lookups_count (v := v) m
    rw [total_cons, List.countP_cons, ← ih, ← hfirst]
    simp only [Counters.add_def, Counters.lookups, Counters.hits]
    omega

end Move

namespace Operations

variable {Obj : Type} {v : Service Obj} {s₀ s : Scene} {l : List Move}

/-- What a run of requests to a service may come to that has started from this scene, and the moves
that it has made. Between two requests other sessions take over, assignments and contexts change, and
stores begin or cease to refuse requests. -/
inductive Run (v : Service Obj) (s₀ : Scene) : List Move → Scene → Prop
  | start : s₀.counters = 0 → s₀.shared = .empty → Run v s₀ [] s₀
  | work {s : Scene} {l : List Move} {ε α : Type} {t : Act Scene ε α} {n : Scene → List Move} :
    Run v s₀ l s → Moves v t n → Run v s₀ (l ++ n s) (t.runFrom s).2
  | meanwhile {s t : Scene} {l : List Move} : Run v s₀ l s → s.Drifts t → Run v s₀ l t

namespace Run

theorem counters_start (h : Run v s₀ l s) : s₀.counters = 0 := by
  induction h with
  | start hcounters _ => exact hcounters
  | work _ _ ih | meanwhile _ _ ih => exact ih

theorem unshared_start (h : Run v s₀ l s) (u : UserId) :
    s₀.shared.get? (sharedKey u) = none := by
  induction h with
  | start _ hshared => rw [hshared, SortedMap.get?_empty]
  | work _ _ ih | meanwhile _ _ ih => exact ih

theorem path (h : Run v s₀ l s) : Move.Path v s₀ l s := by
  induction h with
  | start => exact .nil (.refl s₀)
  | work _ ht ih => exact ih.append (ht.path _)
  | meanwhile _ hdrifts ih => exact ih.drifts_right hdrifts

end Run

variable [DomainObject Obj]

/-- What is counted along a run. Every look-up adds one to the count of what it has found, if it is
answered, so that the counts together are the answered look-ups; as much is loaded as is missed. A
check looks up one snapshot unless a policy decides. Where the shared tier is disabled nothing is
served from it. If a user has been dropped, then the next session that gets an answer about the user
and does not hold it misses it and loads it once. Every request is made of such moves. -/
theorem run_counts (h : Run v s₀ l s) :
    (∀ u r, ((Cache.lookUp v.cache u).runFrom r).2.counters =
      r.counters + .ofLookUp ((Cache.lookUp v.cache u).runFrom r).1) ∧
    s.counters.ofLookUps = Move.total v l ∧
    s.counters.requestHits + s.counters.lookups = l.countP (·.answered v) ∧
    s.world.callCount .loadAssignments =
      s₀.world.callCount .loadAssignments + s.counters.misses ∧
    (∀ u ability subject, let decided := (v.policies.evaluate u ability subject).isSome
      Moves v (v.check u ability subject) (fun r => if decided then [] else [.lookUp u r]) ∧
      ∀ r, ((v.check u ability subject).runFrom r).2.counters.ofLookUps = r.counters.ofLookUps +
        if decided then 0 else .ofLookUp ((Cache.lookUp v.cache u).runFrom r).1) ∧
    (v.cache.sharedEnabled = false → s.counters.sharedHits = 0) ∧
    (∀ l₁ l₂ l₃ u r r', l = l₁ ++ .drop u r :: (l₂ ++ .lookUp u r' :: l₃) →
      ((Cache.invalidateShared u).runFrom r).1 = .ok () →
      (∀ x, .lookUp u x ∈ l₂ → x.held.get? u = none → (Move.lookUp u x).answered v = false) →
      r'.held.get? u = none → (Move.lookUp u r').answered v = true →
      ((Cache.lookUp v.cache u).runFrom r').1 = .ok none ∧
        ((v.snapshot u).runFrom r').2.world.callCount .loadAssignments =
          r'.world.callCount .loadAssignments + 1) ∧
    ∀ {ε α : Type} (t : Act Scene ε α), v.Requested t → ∃ n, Moves v t n := by
  have htotal : s.counters.ofLookUps = Move.total v l := by
    rw [h.path.counts, h.counters_start]
    exact zero_add _
  refine ⟨fun u r => Cache.tells_lookUp v.cache u r, htotal, ?_, ?_, fun u ability subject => ?_,
    fun hdisabled => ?_, ?_, fun t => (Moves.parts v).requested⟩
  · rw [← Move.lookups_total, ← htotal]
    rfl
  · rw [h.path.loads, ← htotal]
    rfl
  · intro decided
    have hcheck := Moves.check v u ability subject
    refine ⟨hcheck, fun r => ?_⟩
    rw [(hcheck.path r).counts]
    congr 1
    split
    · rfl
    · exact (Move.total_cons ..).trans (add_zero _)
  · have hkeeps : v.cache.sharedKeeps = false := by rw [CacheConfig.sharedKeeps, hdisabled]; rfl
    have hhits := h.path.sharedHits hkeeps h.unshared_start
    rw [← htotal] at hhits
    exact hhits
  · rintro l₁ l₂ l₃ u r r' rfl hdrop hbetween hheld hanswered
    exact h.path.missed_of_dropped hdrop hbetween hheld hanswered

/-- A session checks a user and another one drops the user. When a third one checks the user again,
it misses the user as the first one did, and loads it once more. -/
theorem run_counts_again :
    let v : Service Strand := ⟨⟨.ofList ["file"], 25⟩, .empty, {}⟩
    let s₀ : Scene := ⟨⟨World.new, none⟩, .empty, {}, .empty⟩
    let s₁ := ((v.check 7 "read" .root).runFrom s₀).2
    let s₂ : Scene := { s₁ with held := .empty }
    let s₃ := ((Cache.invalidateShared 7).runFrom s₂).2
    let s₄ := ((v.check 7 "read" .root).runFrom s₃).2
    Run v s₀ [.lookUp 7 s₀, .drop 7 s₂, .lookUp 7 s₃] s₄ ∧
      s₄.counters.requestHits + s₄.counters.lookups = 2 ∧
      s₄.world.callCount .loadAssignments = s₄.counters.misses ∧
      ((Cache.lookUp v.cache 7).runFrom s₃).1 = .ok none ∧
      ((v.snapshot 7).runFrom s₃).2.world.callCount .loadAssignments = 2 := by
  intro v s₀ s₁ s₂ s₃ s₄
  have hcheck := Moves.check v 7 "read" (.root : Subject Strand)
  have hchecked : Run v s₀ [.lookUp 7 s₀] s₁ := (Run.start rfl rfl).work hcheck
  have hother : Run v s₀ [.lookUp 7 s₀] s₂ := hchecked.meanwhile (.of_trail rfl)
  have hdropped : Run v s₀ [.lookUp 7 s₀, .drop 7 s₂] s₃ := hother.work (.drop 7)
  have hrun : Run v s₀ [.lookUp 7 s₀, .drop 7 s₂, .lookUp 7 s₃] s₄ := hdropped.work hcheck
  obtain ⟨-, -, hlookups, hloads, -, -, hnext, -⟩ := run_counts hrun
  have hheld : s₃.held.get? 7 = none := by decide +kernel
  obtain ⟨hmissed, hloaded⟩ := hnext [.lookUp 7 s₀] [] [] 7 s₂ s₃ rfl (by decide +kernel)
    (fun _ hx => absurd hx List.not_mem_nil) hheld (by decide +kernel)
  refine ⟨hrun, hlookups.trans (by decide +kernel), hloads.trans (Nat.zero_add _), hmissed,
    hloaded.trans (by decide +kernel)⟩

end Operations

end Clearance
