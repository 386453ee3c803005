import Clearance.Proofs.Context.Gains
import Clearance.Proofs.Object
import Clearance.Proofs.Resolver.Steps

/-! What creations do to a store of any kind, whatever it holds and however requests are met. Records
are put in under the next ids in a row, for owners that the index does not know; whatever is stored
under other ids stays as it is. Resolving creates no contexts but those of an object and of the
parents that are declared for it. -/
namespace Clearance

theorem Id.row_succ (n : ContextId) (k : Nat) :
    row n (k + 1) = row n k ++ [n + Int64.ofNat k] := by
  induction k generalizing n with
  | zero => exact congrArg (fun id => [id]) (Int64.add_zero n).symm
  | succ k ih =>
    have hnext : n + 1 + Int64.ofNat k = n + Int64.ofNat (k + 1) := by
      rw [Int64.ofNat_add, Int64.add_assoc, Int64.add_comm 1]
      rfl
    rw [row, ih, hnext]
    rfl

namespace ContextStore

/-- The store `t` has come from `s` by creating these records one after the other. Their owners are
among those that are allowed. -/
structure Admits (s : ContextStore) (allowed : Owner → Prop) (made : List Record)
    (t : ContextStore) : Prop where
  ids : made.map Record.id = Id.row s.nextId made.length
  next : t.nextId = s.nextId + Int64.ofNat made.length
  others : ∀ id, id ∉ Id.row s.nextId made.length → t.get id = s.get id
  known : ∀ w id, s.owners.get? w = some id → t.owners.get? w = some id
  taken : ∀ w, t.owners.get? w = none → ∀ r ∈ made, r.owner? ≠ some w
  newOwners : ∀ r ∈ made, ∃ w, r.owner? = some w ∧ allowed w ∧ s.owners.get? w = none
  distinct : (made.map Record.owner?).Nodup

namespace Admits

variable {s t t' : ContextStore} {allowed : Owner → Prop} {made : List Record} {d : Draft}
  {r : Record}

theorem refl (s : ContextStore) : s.Admits allowed [] s where
  ids := rfl
  next := (Int64.add_zero s.nextId).symm
  others _ _ := rfl
  known _ _ h := h
  taken _ _ := nofun
  newOwners := nofun
  distinct := .nil

theorem create (h : s.Admits allowed made t) (hd : allowed d.owner)
    (hcreate : t.create d = .ok (r, t')) : s.Admits allowed (made ++ [r]) t' := by
  obtain ⟨hnew, -, -, -, hnext⟩ := create_eq_ok hcreate
  have hid : r.id = s.nextId + Int64.ofNat made.length := (id_of_create hcreate).trans h.next
  have howner : r.owner? = some d.owner := (get_created hcreate).2
  have hindex := (puts_of_create hcreate).owners
  have hlength : (made ++ [r]).length = made.length + 1 := List.length_append
  have hsource : s.owners.get? d.owner = none := by
    cases hs : s.owners.get? d.owner with
    | none => rfl
    | some id => cases hnew.symm.trans (h.known _ _ hs)
  refine ⟨?_, ?_, ?_, ?_, ?_, ?_, ?_⟩
  · rw [List.map_append, h.ids, hlength, Id.row_succ, ← hid]
    rfl
  · rw [hnext, h.next, hlength, Int64.ofNat_add, ← Int64.add_assoc]
    rfl
  · intro id hother
    rw [hlength, Id.row_succ, List.mem_append, List.mem_singleton, not_or, ← h.next] at hother
    rw [get_of_create hcreate, if_neg hother.2]
    exact h.others id hother.1
  · intro w id hs
    have hne : ¬r.owner? = some w := by
      rintro hr
      cases howner.symm.trans hr
      cases hsource.symm.trans hs
    rw [hindex, if_neg hne]
    exact h.known w id hs
  · intro w hw x hx
    rw [hindex] at hw
    split at hw
    · cases hw
    · next hne =>
      rcases List.mem_append.1 hx with hx | hx
      · exact h.taken w hw x hx
      · cases List.mem_singleton.1 hx
        exact hne
  · intro x hx
    rcases List.mem_append.1 hx with hx | hx
    · exact h.newOwners x hx
    · cases List.mem_singleton.1 hx
      exact ⟨d.owner, howner, hd, hsource⟩
  · rw [List.map_append, List.nodup_append]
    refine ⟨h.distinct, List.nodup_cons.2 ⟨List.not_mem_nil, .nil⟩, ?_⟩
    intro a ha b hb hab
    obtain ⟨x, hx, rfl⟩ := List.mem_map.1 ha
    cases List.mem_singleton.1 hb
    exact h.taken d.owner hnew x hx (hab.trans howner)

theorem keeps (h : s.Admits allowed made t)
    (hfree : ∀ id ∈ Id.row s.nextId made.length, s.get id = none) : s.Extends t := by
  intro id r hget
  rw [h.others, hget]
  intro hid
  cases (hfree id hid).symm.trans hget

end Admits

end ContextStore

def Atlas.Admits (s : ContextStore) (allowed : Owner → Prop) (a : Atlas) : Prop :=
  ∃ made, s.Admits allowed made a.world.contexts

namespace Resolver

variable {s : ContextStore} {allowed : Owner → Prop}

theorem leaves_findContexts (w : Owner) :
    (Atlas.ask (World.findContext w)).Leaves fun a => a.world.contexts := by
  have hfind : (World.findContext w).Leaves World.contexts :=
    World.leaves_request (fun _ => rfl) fun _ => rfl
  exact fun a => hfind a.world

theorem leaves_rootContexts : root.Leaves fun a => a.world.contexts := by
  have hget : (World.getContext rootId).Leaves World.contexts :=
    World.leaves_request (fun _ => rfl) fun _ => rfl
  exact root_of Act.leaves_ofExcept Act.Leaves.bind (fun _ => rfl) (fun a => hget a.world)
    fun _ => Act.leaves_modify fun _ => rfl

theorem admits_of_leaves {α : Type} {t : Act Atlas Error α}
    (h : t.Leaves fun a => a.world.contexts) : t.Keeps (Atlas.Admits s allowed) := by
  rintro a ⟨made, hmade⟩
  refine ⟨made, ?_⟩
  rw [show (t.runFrom a).2.world.contexts = a.world.contexts from h a]
  exact hmade

theorem admits_createContext {d : Draft} (hd : allowed d.owner) :
    (Atlas.onWorld (World.createContext d)).Keeps (Atlas.Admits s allowed) := by
  let I (k : Stock) : Prop := ∃ made, s.Admits allowed made k.contexts
  have hcreate : (Atlas.onWorld (World.createContext d)).Meets (Atlas.Admits s allowed)
      (fun _ => Atlas.Admits s allowed) fun _ => Atlas.Admits s allowed :=
    Atlas.meets_onWorld fun _ => World.meets_createContext (I := I) (J := fun _ => I)
      (fun _ _ h _ => h) fun k r contexts h _ hcreate => by
        obtain ⟨made, hmade⟩ := h
        exact ⟨made ++ [r], hmade.create hd hcreate⟩
  exact hcreate.keeps (fun _ _ h => h) fun _ _ h => h

theorem admits_createChild (parent : Context) {w : Owner} (hw : allowed w) :
    (createChild parent w).Keeps (Atlas.Admits s allowed) := by
  let P {α : Type} (t : Act Atlas Error α) : Prop := t.Keeps (Atlas.Admits s allowed)
  have hlog (c : Context) : (Atlas.log (.contextCreated c.id w.level w.instanceId c.path) >>=
      fun _ => pure c).Keeps (Atlas.Admits s allowed) :=
    Act.Keeps.bind (Act.keeps_modify fun _ h => h) fun _ => Act.keeps_pure c
  have hcreate := createOrFind_of (P := P) Act.keeps_ofExcept Act.Keeps.bind
    (fun o => admits_of_leaves (leaves_findContexts o))
    ⟨parent.id, w, parent.record.depth + 1, parent.path⟩ (admits_createContext hw).attempt
  refine Act.Keeps.bind hcreate fun r => (Act.keeps_ofExcept _).bind fun c => ?_
  split
  · exact (Act.keeps_throw _).bind fun _ => hlog c
  · exact hlog c

variable {Obj : Type} [DomainObject Obj]

theorem admits_resolveWithin (parents : ParentRegistry) (limit left : Nat) (o : Obj)
    (h : ∀ m ∈ parents.chain (left + 1) o, allowed (DomainObject.owner m)) :
    (resolveWithin parents limit left o).Keeps (Atlas.Admits s allowed) := by
  have hroot : root.Keeps (Atlas.Admits s allowed) := admits_of_leaves leaves_rootContexts
  have hself : ∀ {n : Nat} (o : Obj), o ∈ parents.chain (n + 1) o := fun _ => List.mem_cons_self ..
  induction left generalizing o with
  | zero =>
    unfold resolveWithin
    refine (admits_of_leaves (leaves_findContexts _)).bind fun found => ?_
    cases found with
    | some r => exact Act.keeps_ofExcept _
    | none =>
      cases parents.parentOf o with
      | none => exact hroot.bind fun c => admits_createChild c (h o (hself o))
      | some p => exact (Act.keeps_throw _).bind fun c => admits_createChild c (h o (hself o))
  | succ left ih =>
    unfold resolveWithin
    refine (admits_of_leaves (leaves_findContexts _)).bind fun found => ?_
    cases found with
    | some r => exact Act.keeps_ofExcept _
    | none =>
      cases hparent : parents.parentOf o with
      | none => exact hroot.bind fun c => admits_createChild c (h o (hself o))
      | some p =>
        rw [ParentRegistry.chain_of_parent hparent, List.forall_mem_cons] at h
        exact (ih p h.2).bind fun c => admits_createChild c h.1

/-- The owner is that of the object in question or of one that is declared above it, as far as the
resolver follows parents. -/
def Concerns (r : Resolver) (subject : Subject Obj) (w : Owner) : Prop :=
  ∃ o, subject = .object o ∧ ∃ m ∈ r.parents.chain (r.maxDepth + 1) o, DomainObject.owner m = w

/-- Contexts are created for none but those whom the subject concerns. -/
theorem admits_resolve (r : Resolver) (subject : Subject Obj) :
    (r.resolve subject).Keeps (Atlas.Admits s (r.Concerns subject)) := by
  cases subject with
  | root | kind k => exact admits_of_leaves leaves_rootContexts
  | context c => exact Act.keeps_pure c
  | object o =>
    exact admits_resolveWithin r.parents r.maxDepth r.maxDepth o fun m hm => ⟨o, rfl, m, hm, rfl⟩

end Resolver

end Clearance
