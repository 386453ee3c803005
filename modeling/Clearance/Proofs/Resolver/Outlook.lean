import Clearance.Proofs.Resolver.Steps
import Clearance.Proofs.Session.Steps
import Clearance.Proofs.World.Ahead

/-! What resolving depends on: the contexts, the root that has been read, and how requests about
contexts are met. Looking up snapshots leaves all of that alone. -/
namespace Clearance

/-- Worlds that are alike in this part are alike in all that resolving can notice, and requests for
contexts leave them alike. -/
structure World.Telling {β : Type} (f : World → β) : Prop where
  contexts {w w' : World} : f w = f w' → w.contexts = w'.contexts
  refusal {w w' : World} {c : Call} (hc : c.aboutContexts = true) : f w = f w' →
    w.disruption.refusal c (w.callCount c) = w'.disruption.refusal c (w'.callCount c)
  unseen {w w' : World} : f w = f w' →
    w.disruption.unseen w.searches = w'.disruption.unseen w'.searches
  imposed {w w' : World} : f w = f w' → w.disruption.imposed = w'.disruption.imposed
  noting {w w' : World} {c : Call} (hc : c.aboutContexts = true) : f w = f w' →
    f (w.noting c) = f (w'.noting c)
  searching {w w' : World} : f w = f w' →
    f { w with searches := w.searches + 1 } = f { w' with searches := w'.searches + 1 }
  yielding {w w' : World} : f w = f w' →
    f { w with disruption := { w.disruption with imposed := none } } =
      f { w' with disruption := { w'.disruption with imposed := none } }
  creating {w w' : World} (contexts : ContextStore) : f w = f w' →
    f { w with contexts } = f { w' with contexts }
  logging (w : World) (e : Event) : f (w.log e) = f w

namespace Atlas

variable {ε α β : Type} {f : World → β}

theorem within_onWorld {t : Act World ε α} (h : t.Within f) :
    (onWorld t).Within fun a => (f a.world, a.root) := by
  intro a a' ha
  obtain ⟨hw, hroot⟩ := Prod.mk.inj ha
  obtain ⟨hr, hs⟩ := h a.world a'.world hw
  exact ⟨hr, Prod.ext hs hroot⟩

theorem within_ask {t : Act World StorageError α} (h : t.Within f) :
    (ask t).Within fun a => (f a.world, a.root) := within_onWorld (h.mapError _)

end Atlas

namespace World.Telling

variable {α β : Type} {f : World → β} (h : Telling f)

include h

theorem within_request {c : Call} {answer : World → Except StorageError α × World}
    (hc : c.aboutContexts = true) (hanswer : ∀ w w' : World, f w = f w' →
      (answer w).1 = (answer w').1 ∧ f (answer w).2 = f (answer w').2) :
    (request c answer).Within f := by
  intro w w' hw
  rw [runFrom_request, runFrom_request, h.refusal hc hw]
  cases w'.disruption.refusal c (w'.callCount c) with
  | some e => exact ⟨rfl, h.noting hc hw⟩
  | none => exact hanswer _ _ (h.noting hc hw)

theorem within_getContext (id : ContextId) : (getContext id).Within f := by
  refine h.within_request rfl fun w w' hw => ⟨?_, hw⟩
  rw [h.contexts hw]

theorem within_findContext (o : Owner) : (findContext o).Within f := by
  refine h.within_request rfl fun w w' hw => ⟨?_, h.searching hw⟩
  simp only [h.contexts hw, h.unseen hw]

theorem within_createContext (d : Draft) : (createContext d).Within f := by
  refine h.within_request rfl fun w w' hw => ?_
  have hcreate : w.contexts.create d = w'.contexts.create d := by rw [h.contexts hw]
  rw [h.imposed hw, hcreate]
  cases w'.disruption.imposed with
  | some r => exact ⟨rfl, h.yielding hw⟩
  | none =>
    cases w'.contexts.create d with
    | error e => exact ⟨rfl, hw⟩
    | ok x => exact ⟨rfl, h.creating x.2 hw⟩

theorem within_root : Resolver.root.Within fun a => (f a.world, a.root) := by
  refine Resolver.root_of Act.within_ofExcept Act.Within.bind ?_
    (Atlas.within_ask (h.within_getContext _)) fun c => ?_
  · exact fun a a' ha => ⟨congrArg Except.ok (Prod.mk.inj ha).2, ha⟩
  · exact fun a a' ha => ⟨rfl, Prod.ext (Prod.mk.inj ha).1 rfl⟩

theorem within_steps : Resolver.Steps fun t => t.Within fun a => (f a.world, a.root) where
  ofExcept := Act.within_ofExcept
  bind := Act.Within.bind
  root := h.within_root
  find o := Atlas.within_ask (h.within_findContext o)
  create d := (Atlas.within_onWorld (h.within_createContext d)).attempt
  log e := fun a a' ha => by
    obtain ⟨hw, hroot⟩ := Prod.mk.inj ha
    refine ⟨rfl, Prod.ext ?_ hroot⟩
    exact (h.logging a.world e).trans (hw.trans (h.logging a'.world e).symm)

end World.Telling

/-- Everything about the stores that resolving can notice. -/
structure Outlook where
  contexts : ContextStore
  disruption : Disruption
  searches : Nat
  /-- How often each request for contexts has been made. -/
  made : Call → Nat

namespace World

variable {α : Type}

def outlook (w : World) : Outlook :=
  ⟨w.contexts, w.disruption, w.searches, fun c => if c.aboutContexts then w.callCount c else 0⟩

theorem outlook_noting (c : Call) (w : World) : (w.noting c).outlook = { w.outlook with
    made := fun d => w.outlook.made d + if c = d ∧ d.aboutContexts = true then 1 else 0 } := by
  simp only [outlook, callCount_noting]
  congr 1
  funext d
  by_cases hd : d.aboutContexts = true
  · simp [hd]
  · simp [hd]

theorem outlook_noting_of_other {c : Call} (hc : c.aboutContexts = false) (w : World) :
    (w.noting c).outlook = w.outlook := by
  rw [outlook_noting]
  have hnone : ∀ d, ¬(c = d ∧ d.aboutContexts = true) := by
    rintro d ⟨rfl, hd⟩
    cases hd.symm.trans hc
  simp [hnone]

theorem telling_outlook : Telling outlook where
  contexts h := congrArg Outlook.contexts h
  refusal {w w' c} hc h := by
    have hdisruption : w.disruption = w'.disruption := congrArg Outlook.disruption h
    have hcount : w.callCount c = w'.callCount c := by
      have := congrFun (congrArg Outlook.made h) c
      simpa [outlook, hc] using this
    rw [hdisruption, hcount]
  unseen {w w'} h := by
    have hdisruption : w.disruption = w'.disruption := congrArg Outlook.disruption h
    have hsearches : w.searches = w'.searches := congrArg Outlook.searches h
    rw [hdisruption, hsearches]
  imposed h := congrArg (fun o => o.disruption.imposed) h
  noting _ h := by rw [outlook_noting, outlook_noting, h]
  searching h := congrArg (fun o : Outlook => { o with searches := o.searches + 1 }) h
  yielding h := congrArg
    (fun o : Outlook => { o with disruption := { o.disruption with imposed := none } }) h
  creating contexts h := congrArg (fun o : Outlook => { o with contexts }) h
  logging _ _ := rfl

theorem leaves_getKey (key : String) : (getKey key).Leaves outlook :=
  leaves_request (outlook_noting_of_other rfl) fun _ => rfl

theorem leaves_setKey (key : String) (value : ByteArray) (ttl : Nat) :
    (setKey key value ttl).Leaves outlook := by
  apply leaves_request (outlook_noting_of_other rfl)
  intro w
  split <;> rfl

theorem leaves_deleteKey (key : String) : (deleteKey key).Leaves outlook :=
  leaves_request (outlook_noting_of_other rfl) fun _ => rfl

theorem leaves_loadAssignments (user : UserId) : (loadAssignments user).Leaves outlook :=
  leaves_request (outlook_noting_of_other rfl) fun _ => rfl

end World

def Atlas.outlook (a : Atlas) : Outlook × Option Context := (a.world.outlook, a.root)

/-- The outcome of resolving depends on nothing but the outlook. -/
theorem Resolver.within_resolve {Obj : Type} [DomainObject Obj] (r : Resolver)
    (subject : Subject Obj) : (r.resolve subject).Within Atlas.outlook :=
  World.telling_outlook.within_steps.stages.resolve r subject

namespace Scene

def outlook (s : Scene) : Outlook × Option Context := s.toAtlas.outlook

variable {ε α : Type}

theorem leaves_onWorld {t : Act World ε α} (h : t.Leaves World.outlook) :
    (onWorld t).Leaves outlook := by
  intro s
  show ((t.runFrom s.world).2.outlook, s.root) = _
  rw [h]
  rfl

theorem leaves_ask {t : Act World StorageError α} (h : t.Leaves World.outlook) :
    (ask t).Leaves outlook := leaves_onWorld (h.mapError _)

end Scene

theorem Cache.leaves_steps (c : CacheConfig) (u : UserId) :
    Steps c u fun t => t.Leaves Scene.outlook where
  ofExcept := Act.leaves_ofExcept
  bind := Act.Leaves.bind
  heldOf _ := rfl
  sharedOf _ := rfl
  hold _ := Act.leaves_modify fun _ => rfl
  share _ := Act.leaves_modify fun _ => by split <;> rfl
  getKey := Scene.leaves_ask (World.leaves_getKey _)
  setKey _ _ := Scene.leaves_ask (World.leaves_setKey _ _ _)
  deleteKey := Scene.leaves_ask (World.leaves_deleteKey _)
  loadAssignments := Scene.leaves_ask (World.leaves_loadAssignments u)
  counters _ := Act.leaves_modify fun _ => rfl
  count _ := Act.leaves_modify fun _ => rfl
  log _ := Act.leaves_modify fun _ => rfl

/-- Looking up the snapshot of a user does not matter to what is resolved afterwards. -/
theorem Service.leaves_snapshot {Obj : Type} [DomainObject Obj] (v : Service Obj) (u : UserId) :
    (v.snapshot u).Leaves Scene.outlook := (Cache.leaves_steps v.cache u).snapshot

end Clearance
