import Clearance.Proofs.Context.Descent
import Clearance.Proofs.World.Ahead

/-! Resolving as a climb and a descent. Where nothing is disrupted but some of the searches of the
climb, both do what the contexts say. -/
namespace Clearance

/-- These are the contexts and the root, and nothing is disrupted but what is missed of the next
searches. -/
structure Atlas.Shows (s : ContextStore) (l : List Bool) (top : Except Error Context)
    (a : Atlas) : Prop where
  world : a.world.Shows s l
  top : s.rootFor a.root = top

namespace Atlas

variable {ε α : Type}

theorem shows_self {a : Atlas} (h : a.world.ahead = .none) :
    a.Shows a.world.contexts [] (a.world.contexts.rootFor a.root) := ⟨⟨rfl, h⟩, rfl⟩

theorem gives_onWorld {P Q : World → Prop} {r : Except ε α} {t : Act World ε α}
    (h : t.Gives P r Q) : (onWorld t).Gives (fun a => P a.world) r fun a => Q a.world :=
  fun a ha => h a.world ha

theorem gives_ask {P Q : World → Prop} {r : Except StorageError α} {t : Act World StorageError α}
    (h : t.Gives P r Q) (root : Option Context) : (ask t).Gives (fun a => P a.world ∧ a.root = root)
      (r.mapError .storage) fun a => Q a.world ∧ a.root = root :=
  fun a ha => ⟨((h.mapError Error.storage) a.world ha.1).1, (h a.world ha.1).2, ha.2⟩

end Atlas

namespace Resolver

variable {s : ContextStore} {l : List Bool} {top : Except Error Context}

theorem gives_find (o : Owner) :
    (Atlas.ask (World.findContext o)).Gives (Atlas.Shows s l top)
      (.ok (if l.headD false then none else s.find o)) (Atlas.Shows s l.tail top) := by
  intro a ha
  obtain ⟨hr, hw, hroot⟩ := Atlas.gives_ask (World.gives_findContext o) a.root a ⟨ha.world, rfl⟩
  exact ⟨hr, hw, by rw [hroot, ha.top]⟩

theorem gives_root : root.Gives (Atlas.Shows s l top) top (Atlas.Shows s l top) := by
  intro a ha
  have htop := ha.top
  rw [root, Act.runFrom_bind_ok (Act.runFrom_get a)]
  cases hroot : a.root with
  | some c =>
    rw [hroot] at htop
    exact ⟨htop, ha⟩
  | none =>
    rw [hroot, ContextStore.rootFor] at htop
    have hread := Atlas.gives_ask (World.gives_getContext (s := s) (l := l) rootId) none
    refine Act.Gives.bind (Q := Atlas.Shows s l top) hread ?_ a ⟨ha.world, hroot⟩
    cases hget : s.get rootId with
    | none =>
      simp only [hget] at htop
      rw [← htop]
      refine Act.gives_throw fun a ha => ⟨ha.1, ?_⟩
      rw [ha.2, ContextStore.rootFor, hget]
    | some r =>
      simp only [hget] at htop
      cases hc : Context.ofRecord r with
      | error e =>
        rw [hc] at htop
        rw [← htop]
        refine Act.Gives.bind_error ((Act.gives_ofExcept hc).weaken fun a ha => ⟨ha.1, ?_⟩)
        rw [ha.2, ContextStore.rootFor, hget]
        exact hc
      | ok c =>
        rw [hc] at htop
        rw [← htop]
        refine (Act.gives_ofExcept hc).bind ?_
        refine (Act.gives_modify fun a ha => ?_).bind (Act.gives_pure fun _ h => h)
        exact ⟨ha.1, rfl⟩

section Descent

/-- Any state with these contexts in which nothing is disrupted. -/
abbrev Calm (s : ContextStore) (a : Atlas) : Prop := a.world.Shows s []

theorem gives_log (e : Event) : (Atlas.log e).Gives (Calm s) (.ok ⟨⟩) (Calm s) :=
  Act.gives_modify fun _ h => ⟨h.contexts, h.ahead⟩

theorem gives_createOrFind (d : Draft) : (createOrFind d).Gives (Calm s) (s.createOrFind d).1
    (Calm (s.createOrFind d).2) := by
  cases hcreate : s.create d with
  | ok x =>
    obtain ⟨r, s'⟩ := x
    have hmade := Atlas.gives_onWorld (World.gives_createContext_ok (l := []) hcreate)
    rw [ContextStore.createOrFind, hcreate]
    exact hmade.attempt.bind (Act.gives_pure fun _ h => h)
  | error e =>
    have hrefused := Atlas.gives_onWorld (World.gives_createContext_error (l := []) hcreate)
    rw [ContextStore.createOrFind, hcreate]
    refine hrefused.attempt.bind ?_
    split
    · next heq => cases heq
    · next heq =>
      cases heq
      have hfind := (Atlas.gives_onWorld
        ((World.gives_findContext (s := s) (l := []) d.owner).mapError Error.storage))
      refine hfind.bind ?_
      cases hfound : s.find d.owner with
      | some r => exact Act.gives_pure fun _ h => h
      | none => exact Act.gives_throw fun _ h => h
    · next e' hne heq =>
      cases heq
      cases e with
      | contextConflict level i => exact absurd rfl (hne level i)
      | _ => exact Act.gives_throw fun _ h => h

theorem gives_createChild (c : Context) (w : Owner) : (createChild c w).Gives (Calm s)
    (s.place c w).1 (Calm (s.place c w).2) := by
  have hrecord := gives_createOrFind (s := s) (.below c.record w)
  unfold ContextStore.place
  generalize s.createOrFind (.below c.record w) = x at hrecord
  match x with
  | (.error e, s') => exact Act.Gives.bind_error hrecord
  | (.ok r, s') =>
    refine Act.Gives.bind hrecord (?_ : Act.Gives (Calm s') _ (c.childOf r) (Calm s'))
    unfold Context.childOf
    cases hc : Context.ofRecord r with
    | error e => exact Act.Gives.bind_error (Act.gives_ofExcept rfl)
    | ok c' =>
      refine Act.Gives.bind (b := c') (R := Calm s') (Act.gives_ofExcept rfl) ?_
      by_cases hparent : c'.record.parent = some c.id
      · simp only [hparent, ne_eq, not_true_eq_false, if_false, if_true]
        exact Act.Gives.bind (gives_log _) (Act.gives_pure fun _ h => h)
      · simp only [hparent, ne_eq, not_false_eq_true, if_true, if_false]
        exact Act.Gives.bind_error (Act.gives_throw fun _ h => h)

def createChain (c : Context) (ws : List Owner) : Act Atlas Error Context := ws.foldlM createChild c

theorem gives_createChain (c : Context) (ws : List Owner) : (createChain c ws).Gives (Calm s)
    (s.descend c ws).1 (Calm (s.descend c ws).2) := by
  induction ws generalizing s c with
  | nil => exact Act.gives_pure fun _ h => h
  | cons w ws ih =>
    have hplace := gives_createChild (s := s) c w
    unfold ContextStore.descend
    generalize s.place c w = x at hplace
    obtain ⟨r, s'⟩ := x
    cases r with
    | error e => exact Act.Gives.bind_error hplace
    | ok c' => exact Act.Gives.bind hplace (ih c')

end Descent

section Climb

variable {Obj : Type} [DomainObject Obj]

/-- Goes up from an object to the first context that is found, else to the root; the owners that
were passed come with it, the topmost first. -/
def climb (parents : ParentRegistry) (limit : Nat) :
    Nat → Obj → Act Atlas Error (Context × List Owner)
  | left, o => do
    match ← Atlas.ask (World.findContext (DomainObject.owner o)) with
    | some r => (·, []) <$> Act.ofExcept (Context.ofRecord r)
    | none =>
      match parents.parentOf o, left with
      | none, _ => (·, [DomainObject.owner o]) <$> root
      | some _, 0 => throw (.beyond limit)
      | some p, left + 1 =>
        (fun x => (x.1, x.2 ++ [DomainObject.owner o])) <$> climb parents limit left p

/-- Resolving is climbing and then making what is missed. -/
theorem resolveWithin_eq (parents : ParentRegistry) (limit left : Nat) (o : Obj) :
    resolveWithin parents limit left o =
      climb parents limit left o >>= fun x => createChain x.1 x.2 := by
  induction left generalizing o with
  | zero =>
    unfold resolveWithin climb
    rw [bind_assoc]
    congr 1
    funext found
    cases found with
    | some r => simp [createChain]
    | none =>
      cases parents.parentOf o with
      | none => simp [createChain]
      | some p => simp [createChain]
  | succ left ih =>
    unfold resolveWithin climb
    rw [bind_assoc]
    congr 1
    funext found
    cases found with
    | some r => simp [createChain]
    | none =>
      cases parents.parentOf o with
      | none => simp [createChain]
      | some p => simp [createChain, ih]

variable {missed : Owner → Bool}

theorem gives_glimpse (missed : Owner → Bool) (w : Owner) (ws : List Owner) :
    (Atlas.ask (World.findContext w)).Gives (Atlas.Shows s (s.missedOn missed (w :: ws)) top)
      (.ok (s.glimpse missed w))
      (Atlas.Shows s (if (s.glimpse missed w).isNone then s.missedOn missed ws else []) top) := by
  have hfind : (Atlas.ask (World.findContext w)).Gives
      (Atlas.Shows s (s.missedOn missed (w :: ws)) top) _ _ := gives_find w
  by_cases hnone : (s.glimpse missed w).isNone = true
  · have hlist : s.missedOn missed (w :: ws) = missed w :: s.missedOn missed ws := by
      simp [ContextStore.missedOn, hnone]
    rw [hlist] at hfind ⊢
    rw [if_pos hnone]
    exact hfind
  · have hlist : s.missedOn missed (w :: ws) = [] := by
      simp [ContextStore.missedOn, hnone]
    have hseen : s.glimpse missed w = s.find w := by
      unfold ContextStore.glimpse at hnone ⊢
      by_cases hmissed : missed w = true
      · simp [hmissed] at hnone
      · rw [if_neg hmissed]
    rw [hlist] at hfind ⊢
    rw [if_neg hnone, hseen]
    exact hfind

theorem gives_climb (s : ContextStore) (top : Except Error Context) (missed : Owner → Bool)
    (parents : ParentRegistry) (limit left : Nat) (o : Obj) : (climb parents limit left o).Gives
      (Atlas.Shows s (s.missedOn missed ((parents.chain (left + 1) o).map DomainObject.owner)) top)
      (s.climb top missed parents limit left o) (Atlas.Shows s [] top) := by
  induction left generalizing o with
  | zero =>
    unfold climb ParentRegistry.chain
    refine (gives_glimpse missed (DomainObject.owner o) _).bind ?_
    cases hseen : s.glimpse missed (DomainObject.owner o) with
    | some r =>
      rw [ContextStore.climb_of_seen hseen]
      exact (Act.gives_ofExcept rfl).map _
    | none =>
      cases hparent : parents.parentOf o with
      | none =>
        rw [ContextStore.climb_of_top hseen hparent]
        exact gives_root.map _
      | some p =>
        rw [ContextStore.climb_zero hseen hparent]
        exact Act.gives_throw fun _ h => h
  | succ left ih =>
    unfold climb ParentRegistry.chain
    refine (gives_glimpse missed (DomainObject.owner o) _).bind ?_
    cases hseen : s.glimpse missed (DomainObject.owner o) with
    | some r =>
      rw [ContextStore.climb_of_seen hseen]
      exact (Act.gives_ofExcept rfl).map _
    | none =>
      cases hparent : parents.parentOf o with
      | none =>
        rw [ContextStore.climb_of_top hseen hparent]
        exact gives_root.map _
      | some p =>
        rw [ContextStore.climb_succ hseen hparent]
        exact (ih p).map _

/-- The owners of the object and of those above it that the resolver looks for. -/
def way (r : Resolver) (o : Obj) : List Owner :=
  (r.parents.chain (r.maxDepth + 1) o).map DomainObject.owner

def climbOver (r : Resolver) (s : ContextStore) (top : Except Error Context)
    (missed : Owner → Bool) (o : Obj) : Except Error (Context × List Owner) :=
  s.climb top missed r.parents r.maxDepth r.maxDepth o

/-- What resolving an object gives and leaves. -/
theorem gives_object (r : Resolver) (o : Obj) : (r.resolve (.object o)).Gives
    (Atlas.Shows s (s.missedOn missed (r.way o)) top) (s.land (r.climbOver s top missed o)).1
    (Calm (s.land (r.climbOver s top missed o)).2) := by
  have hclimb := gives_climb s top missed r.parents r.maxDepth r.maxDepth o
  have hcalm : ∀ a, Atlas.Shows s [] top a → Calm s a := fun _ h => h.world
  rw [resolve, resolveWithin_eq]
  unfold climbOver
  generalize s.climb top missed r.parents r.maxDepth r.maxDepth o = x at hclimb
  match x with
  | .error e => exact (hclimb.weaken hcalm).bind_error
  | .ok (c, ws) => exact (hclimb.weaken hcalm).bind (gives_createChain c ws)

theorem gives_object_error {r : Resolver} {o : Obj} {e : Error}
    (h : r.climbOver s top missed o = .error e) : (r.resolve (.object o)).Gives
      (Atlas.Shows s (s.missedOn missed (r.way o)) top) (.error e) (Atlas.Shows s [] top) := by
  have hclimb := gives_climb s top missed r.parents r.maxDepth r.maxDepth o
  rw [climbOver] at h
  rw [h] at hclimb
  rw [resolve, resolveWithin_eq]
  exact hclimb.bind_error

theorem shows_of_calm {a : Atlas} (h : Atlas.Shows s [] top a) (ws : List Owner) :
    Atlas.Shows s (s.missedOn (fun _ => false) ws) top a := by
  have hnone : Disruption.missing (s.missedOn (fun _ => false) ws) = .none := by
    apply Disruption.missing_of_forall
    intro b hb
    obtain ⟨w, -, hw⟩ := List.mem_map.1 hb
    exact hw.symm
  exact ⟨⟨h.world.contexts, by rw [h.world.ahead, hnone, Disruption.missing_nil]⟩, h.top⟩

theorem gives_unmissed (r : Resolver) (o : Obj) : (r.resolve (.object o)).Gives
    (Atlas.Shows s [] top) (s.land (r.climbOver s top (fun _ => false) o)).1
    (Calm (s.land (r.climbOver s top (fun _ => false) o)).2) := fun a h =>
  gives_object r o a (shows_of_calm h (r.way o))

/-- Resolving disrupts nothing. -/
theorem ahead_resolve (r : Resolver) (subject : Subject Obj) {a : Atlas}
    (h : a.world.ahead = .none) : ((r.resolve subject).runFrom a).2.world.ahead = .none := by
  have hshows := Atlas.shows_self h
  cases subject with
  | root | kind k => exact (gives_root a hshows).2.world.ahead
  | context c => exact h
  | object o => exact (gives_unmissed r o a hshows).2.ahead

end Climb

end Resolver

end Clearance
