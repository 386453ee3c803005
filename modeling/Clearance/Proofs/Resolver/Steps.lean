import Clearance.Proofs.World.Stock

/-! What resolving is made of. A property of computations that survives sequencing holds of every
resolution once it holds of reading the root and of the requests. One such property is that what is
apart from the contexts is left alone, the assignments and the key-value store for example. -/
namespace Clearance

def Atlas.rootOf : Act Atlas Error (Option Context) := .ofFun fun a => (.ok a.root, a)

namespace Resolver

theorem root_eq : root = Atlas.rootOf >>= fun
    | some c => pure c
    | none => Atlas.ask (World.getContext rootId) >>= fun
      | none => throw (.configuration s!"root context {Id.text rootId} does not exist")
      | some r => do
        let c ← Act.ofExcept (Context.ofRecord r)
        modify fun s => { s with root := some c }
        return c := by
  funext a
  have hread : Atlas.rootOf.runFrom a = (.ok a.root, a) := rfl
  refine (Act.runFrom_bind_ok (Act.runFrom_get a) _).trans ?_
  refine Eq.trans ?_ (Act.runFrom_bind_ok hread _).symm
  cases a.root <;> rfl

theorem root_of {P : ∀ {α : Type}, Act Atlas Error α → Prop}
    (ofExcept : ∀ {α : Type} (r : Except Error α), P (Act.ofExcept r))
    (bind : ∀ {α β : Type} {t : Act Atlas Error α} {f : α → Act Atlas Error β},
      P t → (∀ a, P (f a)) → P (t >>= f))
    (read : P Atlas.rootOf) (get : P (Atlas.ask (World.getContext rootId)))
    (keep : ∀ c, P (modify fun s => { s with root := some c })) : P root := by
  rw [root_eq]
  refine bind read fun seen => ?_
  cases seen with
  | some c => exact ofExcept (.ok c)
  | none =>
    refine bind get fun found => ?_
    cases found with
    | none => exact ofExcept (.error _)
    | some r =>
      exact bind (ofExcept _) fun c => bind (keep c) fun _ => ofExcept (.ok c)

/-- The property holds of the stages of a resolution, which logs nothing but the contexts that it
has created, and of sequences of what it holds of. -/
structure Course (P : ∀ {α : Type}, Act Atlas Error α → Prop) : Prop where
  ofExcept {α : Type} (r : Except Error α) : P (Act.ofExcept r)
  bind {α β : Type} {t : Act Atlas Error α} {f : α → Act Atlas Error β} :
    P t → (∀ a, P (f a)) → P (t >>= f)
  root : P root
  find (o : Owner) : P (Atlas.ask (World.findContext o))
  createOrFind (d : Draft) : P (createOrFind d)
  created (c : ContextId) (level : String) (i : InstanceId) (path : String) :
    P (Atlas.log (.contextCreated c level i path))

namespace Course

variable {P : ∀ {α : Type}, Act Atlas Error α → Prop} (h : Course P)

include h

theorem pure {α : Type} (a : α) : P (pure a) := h.ofExcept (.ok a)

theorem throw {α : Type} (e : Error) : P (throw e : Act Atlas Error α) := h.ofExcept (.error e)

theorem lookUp (o : Owner) : P (lookUp o) := by
  refine h.bind (h.find o) fun found => ?_
  cases found with
  | some r => exact h.ofExcept _
  | none => exact h.throw _

theorem createChild (parent : Context) (o : Owner) : P (createChild parent o) := by
  refine h.bind (h.createOrFind _) fun r => h.bind (h.ofExcept _) fun c => ?_
  split
  · exact h.bind (h.throw _) fun _ => h.bind (h.created ..) fun _ => h.pure c
  · exact h.bind (h.created ..) fun _ => h.pure c

variable {Obj : Type} [DomainObject Obj]

theorem resolveWithin (parents : ParentRegistry) (limit left : Nat) (o : Obj) :
    P (resolveWithin parents limit left o) := by
  induction left generalizing o with
  | zero =>
    unfold Resolver.resolveWithin
    refine h.bind (h.find _) fun found => ?_
    cases found with
    | some r => exact h.ofExcept _
    | none =>
      cases parents.parentOf o with
      | none => exact h.bind h.root fun c => h.createChild c _
      | some p => exact h.bind (h.throw _) fun c => h.createChild c _
  | succ left ih =>
    unfold Resolver.resolveWithin
    refine h.bind (h.find _) fun found => ?_
    cases found with
    | some r => exact h.ofExcept _
    | none =>
      cases parents.parentOf o with
      | none => exact h.bind h.root fun c => h.createChild c _
      | some p => exact h.bind (ih p) fun c => h.createChild c _

theorem resolve (r : Resolver) (subject : Subject Obj) : P (r.resolve subject) := by
  cases subject with
  | root => exact h.root
  | context c => exact h.pure c
  | object o => exact h.resolveWithin r.parents r.maxDepth r.maxDepth o
  | kind k => exact h.root

end Course

/-- The property holds of the stages of a resolution, and of sequences of what it holds of. -/
structure Stages (P : ∀ {α : Type}, Act Atlas Error α → Prop) : Prop where
  ofExcept {α : Type} (r : Except Error α) : P (Act.ofExcept r)
  bind {α β : Type} {t : Act Atlas Error α} {f : α → Act Atlas Error β} :
    P t → (∀ a, P (f a)) → P (t >>= f)
  root : P root
  find (o : Owner) : P (Atlas.ask (World.findContext o))
  createOrFind (d : Draft) : P (createOrFind d)
  log (e : Event) : P (Atlas.log e)

namespace Stages

variable {P : ∀ {α : Type}, Act Atlas Error α → Prop} (h : Stages P)

include h

theorem course : Course P := ⟨h.ofExcept, h.bind, h.root, h.find, h.createOrFind, fun _ _ _ _ => h.log _⟩

theorem lookUp (o : Owner) : P (lookUp o) := h.course.lookUp o

theorem resolve {Obj : Type} [DomainObject Obj] (r : Resolver) (subject : Subject Obj) :
    P (r.resolve subject) := h.course.resolve r subject

end Stages

theorem createOrFind_of {P : ∀ {α : Type}, Act Atlas Error α → Prop}
    (ofExcept : ∀ {α : Type} (r : Except Error α), P (Act.ofExcept r))
    (bind : ∀ {α β : Type} {t : Act Atlas Error α} {f : α → Act Atlas Error β},
      P t → (∀ a, P (f a)) → P (t >>= f))
    (find : ∀ o, P (Atlas.ask (World.findContext o))) (d : Draft)
    (create : P ((Atlas.onWorld (World.createContext d)).attempt :
      Act Atlas Error (Except StorageError Record))) : P (createOrFind d) := by
  refine bind create fun r => ?_
  split
  · exact ofExcept (.ok _)
  · refine bind (find d.owner) fun found => ?_
    cases found with
    | some r => exact ofExcept (.ok r)
    | none => exact ofExcept (.error _)
  · exact ofExcept (.error _)

/-- The property holds of all that resolving is made of, and of sequences of what it holds of. -/
structure Steps (P : ∀ {α : Type}, Act Atlas Error α → Prop) : Prop where
  ofExcept {α : Type} (r : Except Error α) : P (Act.ofExcept r)
  bind {α β : Type} {t : Act Atlas Error α} {f : α → Act Atlas Error β} :
    P t → (∀ a, P (f a)) → P (t >>= f)
  root : P root
  find (o : Owner) : P (Atlas.ask (World.findContext o))
  create (d : Draft) :
    P ((Atlas.onWorld (World.createContext d)).attempt : Act Atlas Error (Except StorageError Record))
  log (e : Event) : P (Atlas.log e)

theorem Steps.stages {P : ∀ {α : Type}, Act Atlas Error α → Prop} (h : Steps P) : Stages P where
  ofExcept := h.ofExcept
  bind := h.bind
  root := h.root
  find := h.find
  createOrFind d := createOrFind_of h.ofExcept h.bind h.find d (h.create d)
  log := h.log

section Conditions

variable {I : Option Context → Stock → Prop}

/-- A condition on the stores and on the root that has been read is kept where the root is read if
it allows the root that is stored. -/
theorem keeps_root (hread : ∀ k c, I none k → k.contexts.get rootId = some c.record → I (some c) k) :
    root.Keeps fun a => I a.root a.world.stock := by
  refine Act.Meets.keeps (Q := fun _ a => I a.root a.world.stock)
    (E := fun _ a => I a.root a.world.stock) (Act.meets_get_bind fun a => ?_) (fun _ _ h => h)
    fun _ _ h => h
  cases hroot : a.root with
  | some c => exact Act.meets_pure fun _ h => h.1
  | none =>
    let J (root : Option Context) (k : Stock) : Prop := root = none ∧ I none k
    have hunread : ∀ root k, J root k → I root k := by
      rintro root k ⟨rfl, h⟩
      exact h
    have hget : (Atlas.ask (World.getContext rootId)).Meets (fun a => J a.root a.world.stock)
        (fun found a => J a.root a.world.stock ∧ found = a.world.contexts.get rootId)
        fun _ a => I a.root a.world.stock :=
      Atlas.meets_ask fun root => (World.meets_getContext (I := J root) rootId).mono
        (fun _ h => h) (fun _ _ h => h) fun _ w h => hunread root w.stock h
    refine (hget.mono ?_ (fun _ _ h => h) fun _ _ h => h).bind fun found => ?_
    · rintro s ⟨h, rfl⟩
      rw [hroot] at h
      exact ⟨hroot, h⟩
    · cases found with
      | none => exact Act.meets_throw fun a h => hunread _ _ h.1
      | some r =>
        refine Act.Meets.bind (R := fun c a => I none a.world.stock ∧
          a.world.contexts.get rootId = some c.record) (Act.meets_ofExcept ?_ ?_) fun c => ?_
        · intro c a hc h
          rw [Context.record_of_ofRecord hc]
          exact ⟨h.1.2, h.2.symm⟩
        · exact fun _ a _ h => hunread _ _ h.1
        · refine Act.Meets.bind (R := fun _ a => I a.root a.world.stock)
            (Act.meets_modify fun a h => ?_) fun _ => Act.meets_pure fun _ h => h
          exact hread a.world.stock c h.1 h.2

/-- A condition on the stores and on the root that has been read is kept if the root may be read and
contexts may be created. -/
theorem keeps_steps
    (hread : ∀ k c, I none k → k.contexts.get rootId = some c.record → I (some c) k)
    (himposed : ∀ root k r, I root k → k.imposed = some r → I root { k with imposed := none })
    (hcreated : ∀ root k d r contexts, I root k → k.imposed = none →
      k.contexts.create d = .ok (r, contexts) → I root { k with contexts }) :
    Steps fun t => t.Keeps fun a => I a.root a.world.stock where
  ofExcept := Act.keeps_ofExcept
  bind := Act.Keeps.bind
  root := keeps_root hread
  find o := by
    have hfind : (Atlas.ask (World.findContext o)).Meets (fun a => I a.root a.world.stock)
        (fun _ a => I a.root a.world.stock) fun _ a => I a.root a.world.stock :=
      Atlas.meets_ask fun root => (World.meets_findContext (I := I root) o).mono (fun _ h => h)
        (fun _ _ h => h.1) fun _ _ h => h
    exact hfind.keeps (fun _ _ h => h) fun _ _ h => h
  create d := by
    have hcreate : (Atlas.onWorld (World.createContext d)).Meets (fun a => I a.root a.world.stock)
        (fun _ a => I a.root a.world.stock) fun _ a => I a.root a.world.stock :=
      Atlas.meets_onWorld fun root => World.meets_createContext (himposed root)
        fun k r contexts => hcreated root k d r contexts
    exact (hcreate.keeps (fun _ _ h => h) fun _ _ h => h).attempt
  log _ := Act.keeps_modify fun _ h => h

end Conditions

end Resolver

def Call.aboutContexts : Call → Bool
  | .getContext | .findContext | .createContext => true
  | _ => false

/-- This part of the world is apart from the contexts and from the requests for them. -/
structure World.Apart {β : Type} (f : World → β) : Prop where
  noting (w : World) {c : Call} (hc : c.aboutContexts = true) : f (w.noting c) = f w
  changed (w : World) (contexts : ContextStore) (imposed : Option Record) (searches : Nat)
    (events : Array Event) :
    f { w with contexts, disruption := { w.disruption with imposed }, searches, events } = f w

namespace World.Apart

variable {β : Type} {f : World → β}

theorem leaves_onWorld {ε α : Type} {t : Act World ε α} (h : t.Leaves f) :
    (Atlas.onWorld t).Leaves fun a => f a.world := fun a => h a.world

variable (h : Apart f)

include h

theorem leaves_getContext (id : ContextId) :
    (Atlas.ask (World.getContext id)).Leaves fun a => f a.world :=
  leaves_onWorld ((World.leaves_request (fun w => h.noting w rfl) fun _ => rfl).mapError _)

theorem leaves_findContext (o : Owner) :
    (Atlas.ask (World.findContext o)).Leaves fun a => f a.world := by
  refine leaves_onWorld ((World.leaves_request (fun w => h.noting w rfl) fun w => ?_).mapError _)
  exact h.changed w w.contexts w.disruption.imposed (w.searches + 1) w.events

theorem leaves_createContext (d : Draft) :
    (Atlas.onWorld (World.createContext d)).Leaves fun a => f a.world := by
  refine leaves_onWorld (World.leaves_request (fun w => h.noting w rfl) fun w => ?_)
  cases w.disruption.imposed with
  | some r => exact h.changed w w.contexts none w.searches w.events
  | none =>
    cases w.contexts.create d with
    | ok x => exact h.changed w x.2 w.disruption.imposed w.searches w.events
    | error e => rfl

theorem leaves_root : Resolver.root.Leaves fun a => f a.world :=
  Resolver.root_of Act.leaves_ofExcept Act.Leaves.bind (fun _ => rfl) (h.leaves_getContext rootId)
    fun _ => Act.leaves_modify fun _ => rfl

theorem leaves_steps : Resolver.Steps fun t => t.Leaves fun a => f a.world where
  ofExcept := Act.leaves_ofExcept
  bind := Act.Leaves.bind
  root := h.leaves_root
  find := h.leaves_findContext
  create d := (h.leaves_createContext d).attempt
  log e := Act.leaves_modify fun a =>
    h.changed a.world a.world.contexts a.world.disruption.imposed a.world.searches
      (a.world.log e).events

end World.Apart

/-- What snapshots come from: they are loaded from the assignments or kept under keys. -/
def World.backing (w : World) : AssignmentStore × KeyValueStore := (w.assignments, w.keyValues)

theorem World.apart_backing : World.Apart backing := ⟨fun _ _ _ => rfl, fun _ _ _ _ _ => rfl⟩

def Atlas.backing (a : Atlas) : AssignmentStore × KeyValueStore := a.world.backing

namespace Resolver

theorem leaves_root : root.Leaves Atlas.backing := World.apart_backing.leaves_root

theorem leaves_lookUp (o : Owner) : (lookUp o).Leaves Atlas.backing :=
  World.apart_backing.leaves_steps.stages.lookUp o

theorem leaves_resolve {Obj : Type} [DomainObject Obj] (r : Resolver) (subject : Subject Obj) :
    (r.resolve subject).Leaves Atlas.backing := World.apart_backing.leaves_steps.stages.resolve r subject

end Resolver

end Clearance
