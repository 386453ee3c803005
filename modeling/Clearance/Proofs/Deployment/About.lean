import Clearance.Proofs.Deployment.Touching

/-! What is done for a list of users in one process. It concerns the lower tiers of that process and
of these users; all other entries, and whatever sessions hold, are left alone. -/
namespace Clearance

namespace Scene

/-- All is as it was but for the contexts and for what the lower tiers hold of these users. -/
structure About (users : List UserId) (s t : Scene) : Prop where
  assignments : t.world.assignments = s.world.assignments
  keyValues : ∀ key, (∀ u ∈ users, key ≠ persistentKey u) →
    t.world.keyValues.entries.get? key = s.world.keyValues.entries.get? key
  shared : ∀ key, (∀ u ∈ users, key ≠ sharedKey u) → t.shared.get? key = s.shared.get? key
  held : t.held = s.held

namespace About

variable {users : List UserId} {s t r : Scene}

theorem refl (users : List UserId) (s : Scene) : About users s s :=
  ⟨rfl, fun _ _ => rfl, fun _ _ => rfl, rfl⟩

theorem trans (h : About users s t) (h' : About users t r) : About users s r where
  assignments := h'.assignments.trans h.assignments
  keyValues key hkey := (h'.keyValues key hkey).trans (h.keyValues key hkey)
  shared key hkey := (h'.shared key hkey).trans (h.shared key hkey)
  held := h'.held.trans h.held

theorem mono {others : List UserId} (h : About users s t) (hsub : ∀ u ∈ users, u ∈ others) :
    About others s t :=
  { h with
    keyValues := fun key hkey => h.keyValues key fun u hu => hkey u (hsub u hu)
    shared := fun key hkey => h.shared key fun u hu => hkey u (hsub u hu) }

end About

end Scene

namespace Deployment

variable {Obj : Type} {d : Deployment Obj} {i : Nat} {p : Process Obj} {users : List UserId}

/-- All is as it was but for the contexts, for what the lower tiers of the process `i` hold of these
users, and for its counters. -/
structure About (i : Nat) (users : List UserId) (d d' : Deployment Obj) : Prop where
  assignments : d'.world.assignments = d.world.assignments
  keyValues : ∀ key, (∀ u ∈ users, key ≠ persistentKey u) →
    d'.world.keyValues.entries.get? key = d.world.keyValues.entries.get? key
  shared : ∀ key, (∀ u ∈ users, key ≠ sharedKey u) →
    (d'.process? i).bind (·.shared.get? key) = (d.process? i).bind (·.shared.get? key)
  processes : ∀ j, j ≠ i → d'.process? j = d.process? j
  engine : (d'.process? i).map (·.engine) = (d.process? i).map (·.engine)
  sessions : d'.sessions = d.sessions
  holders : d'.holders = d.holders
  guides : d'.guides = d.guides
  saved : d'.saved = d.saved

variable (hp : d.process? i = some p)

include hp

theorem about_settle {t : Scene} (h : Scene.About users (p.scene d.world .empty) t) :
    About i users d (d.settle i p t) where
  assignments := h.assignments
  keyValues := h.keyValues
  shared key hkey := by
    rw [process?_settle_self hp, hp]
    exact h.shared key hkey
  processes j hj := by rw [process?_settle hp, if_neg hj]
  engine := by
    rw [process?_settle_self hp, hp]
    rfl
  sessions := rfl
  holders := rfl
  guides := rfl
  saved := rfl

end Deployment

end Clearance
