import Clearance.Proofs.Condition
import Clearance.Resolver

/-! What requests do to the stores. Requests are noted and may be refused, and only those that
create or set or delete change what is stored. -/
namespace Clearance

/-- What the stores hold, and the record that the next creation has to yield. -/
structure Stock where
  contexts : ContextStore
  assignments : AssignmentStore
  keyValues : KeyValueStore
  imposed : Option Record

namespace World

variable {α : Type}

def stock (w : World) : Stock := ⟨w.contexts, w.assignments, w.keyValues, w.disruption.imposed⟩

def noting (c : Call) (w : World) : World := { w with calls := c :: w.calls }

theorem callCount_noting (c : Call) (w : World) (d : Call) :
    (w.noting c).callCount d = w.callCount d + if c = d then 1 else 0 := by
  simp [noting, callCount, List.count_cons]

/-- A request is noted, and then it is refused or answered. -/
theorem runFrom_request (c : Call) (answer : World → Except StorageError α × World) (w : World) :
    (request c answer).runFrom w = match w.disruption.refusal c (w.callCount c) with
      | some e => (.error e, w.noting c)
      | none => answer (w.noting c) := rfl

theorem meets_request {P : World → Prop} {Q : α → World → Prop} {E : StorageError → World → Prop}
    {c : Call} {answer : World → Except StorageError α × World}
    (hrefused : ∀ w e, P w → E e (w.noting c))
    (hanswered : ∀ w, P w → Act.Ends Q E (answer (w.noting c))) :
    (request c answer).Meets P Q E := by
  intro w hw
  rw [runFrom_request]
  cases w.disruption.refusal c (w.callCount c) with
  | none => exact hanswered w hw
  | some e => exact hrefused w e hw

theorem keeps_request {I : World → Prop} {c : Call}
    {answer : World → Except StorageError α × World} (hnoted : ∀ w, I w → I (w.noting c))
    (h : ∀ w, I w → I (answer w).2) : (request c answer).Keeps I := by
  intro w hw
  rw [runFrom_request]
  split
  · exact hnoted w hw
  · exact h _ (hnoted w hw)

theorem leaves_request {β : Type} {f : World → β} {c : Call}
    {answer : World → Except StorageError α × World} (hnoted : ∀ w, f (w.noting c) = f w)
    (h : ∀ w, f (answer w).2 = f w) : (request c answer).Leaves f := by
  intro w
  rw [runFrom_request]
  cases w.disruption.refusal c (w.callCount c) with
  | some e => exact hnoted w
  | none => exact (h _).trans (hnoted w)

theorem setKey_cases (key : String) (value : ByteArray) (ttl : Nat) (w : World) :
    (∃ e, (setKey key value ttl).runFrom w = (.error e, w.noting .setKey)) ∨
      (setKey key value ttl).runFrom w = (.ok (), { w.noting .setKey with
        keyValues := ⟨w.keyValues.entries.insert key ⟨value, ttl⟩⟩ }) := by
  rw [setKey, runFrom_request]
  cases w.disruption.refusal .setKey (w.callCount .setKey) with
  | some e => exact .inl ⟨e, rfl⟩
  | none =>
    dsimp only [noting]
    rw [KeyValueStore.set]
    by_cases ht : ttl < KeyValueStore.ttlLimit
    · rw [if_pos ht]
      exact .inr rfl
    · rw [if_neg ht]
      exact .inl ⟨_, rfl⟩

section Conditions

variable {I : Stock → Prop}

theorem meets_getContext (id : ContextId) : (getContext id).Meets (fun w => I w.stock)
    (fun found w => I w.stock ∧ found = w.contexts.get id) fun _ w => I w.stock :=
  meets_request (fun _ _ h => h) fun _ h => ⟨h, rfl⟩

theorem meets_findContext (o : Owner) : (findContext o).Meets (fun w => I w.stock)
    (fun found w => I w.stock ∧ ∀ r, found = some r → w.contexts.find o = some r)
    fun _ w => I w.stock := by
  refine meets_request (fun _ _ h => h) fun w h => ⟨h, fun r hr => ?_⟩
  split at hr
  · cases hr
  · exact hr

/-- A creation yields the record that is imposed on it, or else makes one. -/
theorem meets_createContext {J : Record → Stock → Prop} {d : Draft}
    (himposed : ∀ k r, I k → k.imposed = some r → J r { k with imposed := none })
    (hcreated : ∀ k r contexts, I k → k.imposed = none →
      k.contexts.create d = .ok (r, contexts) → J r { k with contexts }) :
    (createContext d).Meets (fun w => I w.stock) (fun r w => J r w.stock) fun _ w => I w.stock := by
  apply meets_request (fun _ _ h => h)
  intro w h
  simp only [noting]
  cases hi : w.disruption.imposed with
  | some r => exact himposed _ r h hi
  | none =>
    cases hc : w.contexts.create d with
    | error e => exact h
    | ok p => exact hcreated _ _ _ h hi hc

theorem meets_loadAssignments (user : UserId) : (loadAssignments user).Meets (fun w => I w.stock)
    (fun rows w => I w.stock ∧ w.assignments.load user = .ok rows) fun _ w => I w.stock := by
  apply meets_request (fun _ _ h => h)
  intro w h
  cases hl : w.assignments.load user with
  | error e =>
    simp only [noting, hl]
    exact h
  | ok rows =>
    simp only [noting, hl]
    exact ⟨h, hl⟩

theorem meets_getKey (key : String) : (getKey key).Meets (fun w => I w.stock)
    (fun found w => I w.stock ∧ found = w.keyValues.get key) fun _ w => I w.stock :=
  meets_request (fun _ _ h => h) fun _ h => ⟨h, rfl⟩

theorem meets_setKey {J : Stock → Prop} {key : String} {value : ByteArray} {ttl : Nat}
    (hset : ∀ k, I k → J { k with keyValues := ⟨k.keyValues.entries.insert key ⟨value, ttl⟩⟩ }) :
    (setKey key value ttl).Meets (fun w => I w.stock) (fun _ w => J w.stock)
      fun _ w => I w.stock := by
  intro w h
  rcases setKey_cases key value ttl w with ⟨e, hrun⟩ | hrun
  · rw [hrun]
    exact h
  · rw [hrun]
    exact hset _ h

theorem meets_deleteKey {J : Stock → Prop} {key : String}
    (hdelete : ∀ k, I k → J { k with keyValues := k.keyValues.delete key }) :
    (deleteKey key).Meets (fun w => I w.stock) (fun _ w => J w.stock) fun _ w => I w.stock :=
  meets_request (fun _ _ h => h) fun _ h => hdelete _ h

theorem meets_loadSnapshot (user : UserId) : (loadSnapshot user).Meets (fun w => I w.stock)
    (fun p w => I w.stock ∧ ∃ rows, w.assignments.load user = .ok rows ∧ p = .ofRows rows)
    fun _ w => I w.stock := by
  refine (meets_loadAssignments user).mapError.bind fun rows => ?_
  let R (w : World) := I w.stock ∧ w.assignments.load user = .ok rows
  refine Act.Meets.bind (R := fun _ => R) (Act.meets_modify fun _ h => h) fun _ => ?_
  refine Act.Meets.bind (R := fun _ => R) (Act.meets_modify fun _ h => h) fun _ => ?_
  exact Act.meets_pure fun w h => ⟨h.1, rows, h.2, rfl⟩

end Conditions

end World

namespace Atlas

variable {ε α : Type} {P : Atlas → Prop} {Q : α → Atlas → Prop}

theorem meets_onWorld {E : ε → Atlas → Prop} {t : Act World ε α}
    (h : ∀ root, t.Meets (fun w => P ⟨w, root⟩) (fun x w => Q x ⟨w, root⟩) fun e w => E e ⟨w, root⟩) :
    (onWorld t).Meets P Q E := Act.Meets.on (fun _ => rfl) fun a => h a.root

theorem meets_ask {E : Error → Atlas → Prop} {t : Act World StorageError α}
    (h : ∀ root, t.Meets (fun w => P ⟨w, root⟩) (fun x w => Q x ⟨w, root⟩)
      fun e w => E (.storage e) ⟨w, root⟩) :
    (ask t).Meets P Q E := meets_onWorld fun root => (h root).mapError

end Atlas

end Clearance
