import Clearance.Proofs.Cache.Counting
import Clearance.Proofs.Session.Again

/-! What requests do with the cache of a service, move by move: they look up snapshots and drop users
from the shared tiers. A run of requests is a path of moves, between which nothing is counted or
loaded and the shared tiers gain nothing. -/
namespace Clearance

def Counters.ofLookUps (c : Counters) : Counters := { c with batchChecks := 0, invalidations := 0 }

namespace Scene

/-- From one scene to the other nothing has been looked up or loaded, and the shared tiers have
gained nothing. All else is as it may be, what is held as well. -/
structure Drifts (s t : Scene) : Prop where
  counts : t.counters.ofLookUps = s.counters.ofLookUps
  loads : t.world.callCount .loadAssignments = s.world.callCount .loadAssignments
  shared : ∀ u, s.shared.get? (sharedKey u) = none → t.shared.get? (sharedKey u) = none
  keyValues : ∀ u, s.world.keyValues.get (persistentKey u) = none →
    t.world.keyValues.get (persistentKey u) = none

namespace Drifts

variable {s t r : Scene}

theorem refl (s : Scene) : s.Drifts s := ⟨rfl, rfl, fun _ => id, fun _ => id⟩

theorem trans (h : s.Drifts t) (h' : t.Drifts r) : s.Drifts r where
  counts := h'.counts.trans h.counts
  loads := h'.loads.trans h.loads
  shared u hu := h'.shared u (h.shared u hu)
  keyValues u hu := h'.keyValues u (h.keyValues u hu)

end Drifts

def trail (s : Scene) : Counters × Nat × SortedMap String Snapshot × KeyValueStore :=
  (s.counters.ofLookUps, s.world.callCount .loadAssignments, s.shared, s.world.keyValues)

theorem Drifts.of_trail {s t : Scene} (h : t.trail = s.trail) : s.Drifts t := by
  obtain ⟨hcounts, hrest⟩ := Prod.mk.inj h
  obtain ⟨hloads, hrest⟩ := Prod.mk.inj hrest
  obtain ⟨hshared, hkeyValues⟩ := Prod.mk.inj hrest
  exact ⟨hcounts, hloads, fun u hu => hshared ▸ hu, fun u hu => hkeyValues ▸ hu⟩

def Idle {ε α : Type} (t : Act Scene ε α) : Prop := t.Leaves trail

theorem idle_log {ε : Type} (e : Event) : Idle (log e : Act Scene ε Unit) := fun _ => rfl

theorem idle_resolve {Obj : Type} [DomainObject Obj] (v : Service Obj) (subject : Subject Obj) :
    Idle (v.resolve subject) := fun s => by
  have hsupplies := Service.Follows.supplies_resolve v subject s
  exact congrArg (fun x => (s.counters.ofLookUps, x.loads, x.shared, x.keyValues)) hsupplies

end Scene

/-- A move, and the scene in which it is made. -/
inductive Move where
  | lookUp (u : UserId) (s : Scene)
  | drop (u : UserId) (s : Scene)

namespace Move

variable {Obj : Type}

def scene : Move → Scene
  | lookUp _ s | drop _ s => s

/-- The scene that is left. A snapshot that is not found is loaded and cached. -/
def after (v : Service Obj) : Move → Scene
  | lookUp u s => ((v.snapshot u).runFrom s).2
  | drop u s => ((Cache.invalidateShared u).runFrom s).2

/-- Whether this is a look-up that has told what is cached. -/
def answered (v : Service Obj) : Move → Bool
  | lookUp u s => ((Cache.lookUp v.cache u).runFrom s).1.isOk
  | drop .. => false

def count (v : Service Obj) : Move → Counters
  | lookUp u s => .ofLookUp ((Cache.lookUp v.cache u).runFrom s).1
  | drop .. => 0

inductive Path (v : Service Obj) : Scene → List Move → Scene → Prop
  | nil {s t : Scene} : s.Drifts t → Path v s [] t
  | cons {s t : Scene} {m : Move} {l : List Move} : s.Drifts m.scene → Path v (m.after v) l t →
    Path v s (m :: l) t

namespace Path

variable {v : Service Obj} {s t r : Scene} {m : Move} {l l' : List Move}

theorem drifts_left (h : r.Drifts s) (hpath : Path v s l t) : Path v r l t := by
  cases hpath with
  | nil h' => exact .nil (h.trans h')
  | cons h' hrest => exact .cons (h.trans h') hrest

theorem append (hpath : Path v s l t) (h : Path v t l' r) : Path v s (l ++ l') r := by
  induction hpath with
  | nil hdrifts => exact h.drifts_left hdrifts
  | cons hdrifts _ ih => exact .cons hdrifts (ih h)

theorem drifts_right (hpath : Path v s l t) (h : t.Drifts r) : Path v s l r :=
  List.append_nil l ▸ hpath.append (.nil h)

theorem single (m : Move) : Path v m.scene [m] (m.after v) := .cons (.refl _) (.nil (.refl _))

theorem split (hpath : Path v s (l ++ l') t) : ∃ r, Path v s l r ∧ Path v r l' t := by
  induction l generalizing s with
  | nil => exact ⟨s, .nil (.refl s), hpath⟩
  | cons m l ih =>
    cases hpath with
    | cons hdrifts hrest =>
      obtain ⟨r, hleft, hright⟩ := ih hrest
      exact ⟨r, .cons hdrifts hleft, hright⟩

end Path

end Move

/-- The moves that a computation makes from a scene, one after the other. -/
inductive Moves {Obj : Type} (v : Service Obj) :
    {ε α : Type} → Act Scene ε α → (Scene → List Move) → Prop
  | snapshot (u : UserId) : Moves v (v.snapshot u) fun s => [.lookUp u s]
  | drop (u : UserId) : Moves v (Cache.invalidateShared u) fun s => [.drop u s]
  | idle {ε α : Type} {t : Act Scene ε α} : Scene.Idle t → Moves v t fun _ => []
  | bind {ε α β : Type} {t : Act Scene ε α} {f : α → Act Scene ε β} {n : Scene → List Move}
      {m : α → Scene → List Move} : Moves v t n → (∀ a, Moves v (f a) (m a)) →
    Moves v (t >>= f) fun s => n s ++ match t.runFrom s with
      | (.ok a, s) => m a s
      | (.error _, _) => []
  | mapError {ε ε' α : Type} {t : Act Scene ε α} {n : Scene → List Move} (g : ε → ε') :
    Moves v t n → Moves v (t.mapError g) n
  | attempt {ε ε' α : Type} {t : Act Scene ε α} {n : Scene → List Move} :
    Moves v t n → Moves v (t.attempt : Act Scene ε' _) n
  | fresh {ε α : Type} {t : Act Scene ε α} {n : Scene → List Move} :
    Moves v t n → Moves v (Service.inFreshSession t) fun s => n { s with held := .empty }

namespace Moves

variable {Obj : Type} {v : Service Obj} {ε α : Type} {t : Act Scene ε α} {n : Scene → List Move}

theorem path (h : Moves v t n) (s : Scene) : Move.Path v s (n s) (t.runFrom s).2 := by
  induction h generalizing s with
  | snapshot u => exact .single (.lookUp u s)
  | drop u => exact .single (.drop u s)
  | idle h => exact .nil (.of_trail (h s))
  | @bind ε α β t f n m _ _ ht hf =>
    have hfirst := ht s
    rw [Act.runFrom_bind]
    dsimp only
    generalize t.runFrom s = run at hfirst ⊢
    match run, hfirst with
    | (.error _, _), hfirst => exact hfirst.append (.nil (.refl _))
    | (.ok a, r), hfirst => exact hfirst.append (hf a r)
  | mapError g _ h => exact h s
  | attempt _ h => exact h s
  | fresh _ h =>
    have hinside := h { s with held := .empty }
    refine (hinside.drifts_left ?_).drifts_right ?_
    · exact .of_trail rfl
    · exact .of_trail rfl

theorem congr {m : Scene → List Move} (h : Moves v t n) (heq : ∀ s, n s = m s) : Moves v t m :=
  funext heq ▸ h

variable [DomainObject Obj]

theorem parts (v : Service Obj) : v.Parts fun t => ∃ n, Moves v t n where
  ofExcept _ := ⟨_, .idle (Act.leaves_ofExcept _)⟩
  bind := by
    rintro _ _ _ _ _ ⟨n, hn⟩ hf
    choose m hm using hf
    exact ⟨_, hn.bind hm⟩
  mapError g := fun ⟨n, hn⟩ => ⟨n, hn.mapError g⟩
  attempt := fun ⟨n, hn⟩ => ⟨n, hn.attempt⟩
  fresh := fun ⟨_, hn⟩ => ⟨_, hn.fresh⟩
  snapshot u := ⟨_, .snapshot u⟩
  resolve subject := ⟨_, .idle (Scene.idle_resolve v subject)⟩
  drop u := ⟨_, .drop u⟩
  letGo _ := ⟨_, .idle fun _ => rfl⟩
  log _ := ⟨_, .idle (Scene.idle_log _)⟩
  count _ := ⟨_, .idle fun _ => rfl⟩
  batch _ := ⟨_, .idle fun _ => rfl⟩

/-- A check looks up one snapshot, or a policy decides. -/
theorem check (v : Service Obj) (u : UserId) (ability : String) (subject : Subject Obj) :
    Moves v (v.check u ability subject) fun s =>
      if (v.policies.evaluate u ability subject).isSome then [] else [.lookUp u s] := by
  unfold Service.check
  cases v.policies.evaluate u ability subject with
  | some r =>
    refine .idle ?_
    cases r with
    | allow | deny => exact Act.Leaves.bind (Scene.idle_log _) fun _ => Act.leaves_pure _
    | denyBecause reason => exact Act.leaves_throw _
  | none =>
    refine (Moves.bind (m := fun _ _ => []) (.snapshot u) fun p => .idle ?_).congr
      fun s => ?_
    · split
      · exact Act.Leaves.bind (Scene.idle_log _) fun _ => Act.leaves_pure _
      · exact Act.Leaves.bind (Scene.idle_resolve v subject) fun c =>
          Act.Leaves.bind (Scene.idle_log _) fun _ => Act.leaves_pure _
    · generalize (v.snapshot u).runFrom s = run
      match run with
      | (.ok _, _) | (.error _, _) => rfl

end Moves

end Clearance
