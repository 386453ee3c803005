import Clearance.Proofs.Context.Ascent
import Clearance.Proofs.World.Stock
import Clearance.Resolver

/-! Resolving lets a tree of contexts grow and does nothing else to it. A context that is resolved
is stored, and a new one stands below the context of the object's declared parent. -/
namespace Clearance

open ContextStore (capacity)

/-- The contexts are a tree that has grown from `base`, and the root that has been read is its
root. -/
structure Stock.Grown (allowed : Owner → Option Owner → Prop) (base : ContextStore)
    (root : Option Context) (k : Stock) : Prop where
  imposed : k.imposed = none
  rooted : k.contexts.Rooted allowed
  kept : base.Extends k.contexts
  cell : ∀ c, root = some c → c = .root

theorem Stock.Grown.congr {allowed : Owner → Option Owner → Prop} {base : ContextStore}
    {root : Option Context} {k k' : Stock} (h : k.Grown allowed base root)
    (hcontexts : k'.contexts = k.contexts) (himposed : k'.imposed = k.imposed) :
    k'.Grown allowed base root := by
  obtain ⟨contexts, assignments, keyValues, imposed⟩ := k'
  cases hcontexts
  cases himposed
  exact ⟨h.imposed, h.rooted, h.kept, h.cell⟩

/-- For as long as there are numbers left, the tree grows, and `Q` holds of it. -/
def Stock.Growing (allowed : Owner → Option Owner → Prop) (base : ContextStore)
    (Q : ContextStore → Prop) (root : Option Context) (k : Stock) : Prop :=
  k.contexts.size < capacity → k.Grown allowed base root ∧ Q k.contexts

def Atlas.Growing (allowed : Owner → Option Owner → Prop) (base : ContextStore)
    (Q : ContextStore → Prop) (a : Atlas) : Prop := a.world.stock.Growing allowed base Q a.root

/-- The context is stored, and `u` is its owner. -/
def Context.StandsFor (c : Context) (u : Option Owner) (s : ContextStore) : Prop :=
  s.get c.id = some c.record ∧ c.record.owner? = u

/-- The registry places each object where it is allowed to be placed. -/
def ParentRegistry.Places (Obj : Type) [DomainObject Obj] (parents : ParentRegistry)
    (allowed : Owner → Option Owner → Prop) : Prop :=
  ∀ o : Obj, allowed (DomainObject.owner o) ((parents.parentOf o).map DomainObject.owner)

namespace Resolver

variable {allowed : Owner → Option Owner → Prop} {base : ContextStore}
  {Q : ContextStore → Prop}

theorem meets_root : root.Meets (Atlas.Growing allowed base fun _ => True)
    (fun c => Atlas.Growing allowed base (c.StandsFor none))
    fun _ => Atlas.Growing allowed base fun _ => True := by
  apply Act.meets_get_bind
  intro a
  cases hroot : a.root with
  | some c =>
    refine Act.meets_pure fun s ⟨hs, he⟩ room => ?_
    subst he
    obtain ⟨h, -⟩ := hs room
    cases h.cell c hroot
    exact ⟨h, h.rooted.root, rfl⟩
  | none =>
    have hread : (Atlas.ask (World.getContext rootId)).Meets (Atlas.Growing allowed base fun _ => True)
        (fun found => Atlas.Growing allowed base fun s => found = s.get rootId)
        fun _ => Atlas.Growing allowed base fun _ => True :=
      Atlas.meets_ask fun root => (World.meets_getContext rootId
        (I := Stock.Growing allowed base (fun _ => True) root)).mono (fun _ h => h)
        (fun _ _ h room => ⟨(h.1 room).1, h.2⟩) fun _ _ h => h
    refine (hread.mono (fun _ h => h.1) (fun _ _ h => h) fun _ _ h => h).bind fun found => ?_
    cases found with
    | none => exact Act.meets_throw fun _ h room => ⟨(h room).1, trivial⟩
    | some r =>
      refine Act.Meets.bind (R := fun c => Atlas.Growing allowed base fun s =>
        s.get rootId = some c.record) (Act.meets_ofExcept (fun c s hc h room => ?_)
          fun _ _ _ h room => ⟨(h room).1, trivial⟩) fun c => ?_
      · rw [Context.record_of_ofRecord hc]
        exact ⟨(h room).1, (h room).2.symm⟩
      · refine Act.Meets.bind (R := fun _ => Atlas.Growing allowed base (c.StandsFor none))
          (Act.meets_modify fun s h room => ?_) fun _ => Act.meets_pure fun _ h => h
        obtain ⟨hg, hget⟩ := h room
        have hc : c = .root :=
          Context.ext_record (Option.some.inj (hget.symm.trans hg.rooted.root))
        subst hc
        exact ⟨⟨hg.imposed, hg.rooted, hg.kept, fun _ he => (Option.some.inj he).symm⟩,
          hg.rooted.root, rfl⟩

theorem meets_find (o : Owner) :
    (Atlas.ask (World.findContext o)).Meets (Atlas.Growing allowed base Q)
      (fun found => Atlas.Growing allowed base fun s =>
        Q s ∧ ∀ r, found = some r → s.get r.id = some r ∧ r.owner? = some o)
      fun _ => Atlas.Growing allowed base Q :=
  Atlas.meets_ask fun root => (World.meets_findContext o
    (I := Stock.Growing allowed base Q root)).mono (fun _ h => h)
    (fun _ _ ⟨h, hf⟩ room => ⟨(h room).1, (h room).2, fun r hr =>
      (h room).1.rooted.get_of_find (hf r hr)⟩) fun _ _ h => h

section Create

variable {p : Record} {w : Owner}

theorem meets_createContext : (Atlas.onWorld (World.createContext (.below p w))).Meets
    (Atlas.Growing allowed base fun s => s.get p.id = some p ∧ allowed w p.owner?)
    (fun r => Atlas.Growing allowed base fun s => s.get r.id = some r ∧ r.owner? = some w)
    fun _ => Atlas.Growing allowed base fun _ => True := by
  refine Atlas.meets_onWorld fun root => (World.meets_createContext
    (I := Stock.Growing allowed base (fun s => s.get p.id = some p ∧ allowed w p.owner?) root)
    (J := fun r => Stock.Growing allowed base
      (fun s => s.get r.id = some r ∧ r.owner? = some w) root) ?_ ?_).mono
    (fun _ h => h) (fun _ _ h => h) fun _ _ h room => ⟨(h room).1, trivial⟩
  · intro k r h himposed room
    cases (h room).1.imposed.symm.trans himposed
  · intro k r contexts h himposed hc room
    obtain ⟨hg, hp, hw⟩ := h (Nat.lt_of_le_of_lt (ContextStore.size_le_of_create hc) room)
    exact ⟨⟨himposed, hg.rooted.create hc room hp hw,
      hg.kept.trans (hg.rooted.extends_of_create hc room), hg.cell⟩, ContextStore.get_created hc⟩

theorem meets_createOrFind : (createOrFind (.below p w)).Meets
    (Atlas.Growing allowed base fun s => s.get p.id = some p ∧ allowed w p.owner?)
    (fun r => Atlas.Growing allowed base fun s => s.get r.id = some r ∧ r.owner? = some w)
    fun _ => Atlas.Growing allowed base fun _ => True := by
  refine Act.Meets.bind (R := fun x => Atlas.Growing allowed base fun s =>
    ∀ r, x = .ok r → s.get r.id = some r ∧ r.owner? = some w) (meets_createContext.mono
      (fun _ h => h) (fun _ _ h room => ⟨(h room).1, fun r hr => by cases hr; exact (h room).2⟩)
      fun _ _ h room => ⟨(h room).1, fun _ hr => by cases hr⟩).attempt fun x => ?_
  split
  · exact Act.meets_pure fun _ h room => ⟨(h room).1, (h room).2 _ rfl⟩
  · refine Act.Meets.bind ((meets_find w (Q := fun _ => True)).mono
      (fun _ h room => ⟨(h room).1, trivial⟩) (fun _ _ h => h) fun _ _ h => h) fun found => ?_
    cases found with
    | some r => exact Act.meets_pure fun _ h room => ⟨(h room).1, (h room).2.2 r rfl⟩
    | none => exact Act.meets_throw fun _ h room => ⟨(h room).1, trivial⟩
  · exact Act.meets_throw fun _ h room => ⟨(h room).1, trivial⟩

end Create

theorem meets_createChild {c : Context} {u : Option Owner} {w : Owner} (hw : allowed w u) :
    (createChild c w).Meets (Atlas.Growing allowed base (c.StandsFor u))
      (fun c => Atlas.Growing allowed base (c.StandsFor (some w)))
      fun _ => Atlas.Growing allowed base fun _ => True := by
  refine (meets_createOrFind (p := c.record)).mono (fun _ h room => ?_) (fun _ _ h => h)
    (fun _ _ h => h) |>.bind fun r => ?_
  · obtain ⟨hg, hget, hu⟩ := h room
    exact ⟨hg, hget, hu ▸ hw⟩
  · refine Act.Meets.bind (R := fun c' => Atlas.Growing allowed base (c'.StandsFor (some w)))
      (Act.meets_ofExcept (fun c' s hc' h room => ?_) fun _ _ _ h room => ⟨(h room).1, trivial⟩)
      fun c' => ?_
    · cases Context.record_of_ofRecord hc'
      exact h room
    · split
      · exact Act.Meets.bind (R := fun _ _ => False)
          (Act.meets_throw fun _ h room => ⟨(h room).1, trivial⟩) fun _ _ h => h.elim
      · refine Act.Meets.bind (R := fun _ => Atlas.Growing allowed base (c'.StandsFor (some w)))
          (Act.meets_modify fun _ h => h) fun _ => Act.meets_pure fun _ h => h

/-- Where a search finds nothing, what is done instead has to give the object its context. -/
theorem meets_found {Obj : Type} [DomainObject Obj] (o : Obj) {t : Act Atlas Error Context}
    (ht : t.Meets (Atlas.Growing allowed base fun _ => True)
      (fun c => Atlas.Growing allowed base (c.StandsFor (some (DomainObject.owner o))))
      fun _ => Atlas.Growing allowed base fun _ => True) :
    (Atlas.ask (World.findContext (DomainObject.owner o)) >>= fun found => match found with
      | some r => Act.ofExcept (Context.ofRecord r)
      | none => t).Meets (Atlas.Growing allowed base fun _ => True)
      (fun c => Atlas.Growing allowed base (c.StandsFor (some (DomainObject.owner o))))
      fun _ => Atlas.Growing allowed base fun _ => True := by
  refine (meets_find _).bind fun found => ?_
  cases found with
  | none => exact ht.mono (fun _ h room => ⟨(h room).1, trivial⟩) (fun _ _ h => h) fun _ _ h => h
  | some r =>
    refine Act.meets_ofExcept (fun c s hc h room => ?_) fun _ _ _ h room => ⟨(h room).1, trivial⟩
    cases Context.record_of_ofRecord hc
    exact ⟨(h room).1, (h room).2.2 _ rfl⟩

/-- Whatever way is left, the tree only grows, and the context that comes out stands for the
object. -/
theorem meets_resolveWithin {Obj : Type} [DomainObject Obj] {parents : ParentRegistry}
    (hparents : parents.Places Obj allowed) (limit left : Nat) (o : Obj) :
    (resolveWithin parents limit left o).Meets (Atlas.Growing allowed base fun _ => True)
      (fun c => Atlas.Growing allowed base (c.StandsFor (some (DomainObject.owner o))))
      fun _ => Atlas.Growing allowed base fun _ => True := by
  induction left generalizing o with
  | zero =>
    unfold resolveWithin
    apply meets_found o
    have ho := hparents o
    cases hp : parents.parentOf o with
    | none => exact meets_root.bind fun c => meets_createChild (by rw [hp] at ho; exact ho)
    | some p =>
      exact Act.Meets.bind (R := fun _ _ => False)
        (Act.meets_throw fun _ h room => ⟨(h room).1, trivial⟩) fun _ _ h => h.elim
  | succ left ih =>
    -- the parent's context comes by the hypothesis, with one step less of the way
    unfold resolveWithin
    apply meets_found o
    have ho := hparents o
    cases hp : parents.parentOf o with
    | none => exact meets_root.bind fun c => meets_createChild (by rw [hp] at ho; exact ho)
    | some p => exact (ih p).bind fun c => meets_createChild (by rw [hp] at ho; exact ho)

theorem keeps_resolve {Obj : Type} [DomainObject Obj] {r : Resolver}
    (h : r.parents.Places Obj allowed) (subject : Subject Obj) :
    (r.resolve subject).Keeps (Atlas.Growing allowed base fun _ => True) := by
  have hroot : root.Keeps (Atlas.Growing allowed base fun _ => True) :=
    meets_root.keeps (fun _ _ h room => ⟨(h room).1, trivial⟩) fun _ _ h => h
  cases subject with
  | root => exact hroot
  | context c => exact Act.keeps_pure c
  | object o =>
    exact (meets_resolveWithin h _ _ o).keeps (fun _ _ h room => ⟨(h room).1, trivial⟩)
      fun _ _ h => h
  | kind k => exact hroot

theorem keeps_lookUp (o : Owner) :
    (lookUp o).Keeps (Atlas.Growing allowed base fun _ => True) := by
  refine ((meets_find o).keeps (fun _ _ h room => ⟨(h room).1, trivial⟩) fun _ _ h => h).bind
    fun found => ?_
  cases found with
  | none => exact Act.keeps_throw _
  | some r => exact Act.keeps_ofExcept _

end Resolver

end Clearance
