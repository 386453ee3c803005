import Clearance.Proofs.World.Stock

/-! How the requests that are still to come will be met. Where nothing is refused any more, a
request has the outcome that the contexts give it, but for the searches that see nothing. -/
namespace Clearance

namespace Disruption

def afterCall (d : Disruption) (c : Call) : Disruption :=
  { d with refusal := fun c' k => d.refusal c' ((if c = c' then 1 else 0) + k) }

def afterSearch (d : Disruption) : Disruption := { d with unseen := fun k => d.unseen (1 + k) }

/-- Nothing is disrupted but the first searches, each of which sees nothing where the list says
so. -/
def missing (l : List Bool) : Disruption := ⟨fun _ _ => .none, fun k => l.getD k false, .none⟩

theorem missing_nil : missing [] = .none := rfl

theorem missing_of_forall {l : List Bool} (h : ∀ b ∈ l, b = false) : missing l = .none := by
  unfold missing none
  congr 1
  funext k
  rw [List.getD_eq_getElem?_getD]
  cases hk : l[k]? with
  | none => rfl
  | some b => exact h b (List.mem_of_getElem? hk)

theorem afterCall_missing (l : List Bool) (c : Call) : (missing l).afterCall c = missing l := rfl

theorem afterSearch_missing (l : List Bool) : (missing l).afterSearch = missing l.tail := by
  unfold afterSearch missing
  congr 1
  funext k
  rw [Nat.add_comm]
  cases l with
  | nil => rfl
  | cons b l => rfl

end Disruption

namespace World

variable {α : Type}

/-- How the requests from here on will be met; they are numbered from zero again. -/
def ahead (w : World) : Disruption where
  refusal c k := w.disruption.refusal c (w.callCount c + k)
  unseen k := w.disruption.unseen (w.searches + k)
  imposed := w.disruption.imposed

theorem ahead_noting (c : Call) (w : World) : (w.noting c).ahead = w.ahead.afterCall c := by
  unfold ahead Disruption.afterCall
  congr 1
  funext d k
  rw [callCount_noting, Nat.add_assoc]
  rfl

theorem ahead_search (w : World) :
    ahead { w with searches := w.searches + 1 } = w.ahead.afterSearch := by
  unfold ahead Disruption.afterSearch
  congr 1
  funext k
  rw [Nat.add_assoc]

theorem runFrom_request_ahead (c : Call) (answer : World → Except StorageError α × World) (w : World) :
    (request c answer).runFrom w = match w.ahead.refusal c 0 with
      | some e => (.error e, w.noting c)
      | none => answer (w.noting c) := rfl

theorem runFrom_request_of_calm {w : World} (h : w.ahead = .none) (c : Call)
    (answer : World → Except StorageError α × World) :
    (request c answer).runFrom w = answer (w.noting c) ∧ (w.noting c).ahead = .none := by
  rw [runFrom_request_ahead, ahead_noting, h]
  exact ⟨rfl, rfl⟩

theorem ahead_hideNext {w : World} (h : w.ahead = .none) (n : Nat) :
    (w.hideNext n).ahead = .missing (List.replicate n true) := by
  let hidden (k : Nat) : Bool := w.searches ≤ w.searches + k && w.searches + k < w.searches + n
  have hahead : (w.hideNext n).ahead = { w.ahead with unseen := hidden } := rfl
  have hhidden : hidden = fun k => (List.replicate n true).getD k false := by
    funext k
    rw [List.getD_eq_getElem?_getD, List.getElem?_replicate]
    by_cases hk : k < n
    · simp [hidden, hk]
    · simp [hidden, hk]
  rw [hahead, h, hhidden]
  rfl

/-- These are the contexts, and nothing is disrupted but what is missed of the next searches. -/
structure Shows (s : ContextStore) (l : List Bool) (w : World) : Prop where
  contexts : w.contexts = s
  ahead : w.ahead = .missing l

section Shows

variable {s : ContextStore} {l : List Bool}

theorem Shows.noting {w : World} (h : w.Shows s l) (c : Call) : (w.noting c).Shows s l where
  contexts := h.contexts
  ahead := by rw [ahead_noting, h.ahead, Disruption.afterCall_missing]

theorem gives_request {c : Call} {answer : World → Except StorageError α × World}
    {r : Except StorageError α} {Q : World → Prop}
    (h : ∀ w, w.Shows s l → (answer w).1 = r ∧ Q (answer w).2) :
    (request c answer).Gives (Shows s l) r Q := by
  intro w hw
  rw [runFrom_request_ahead, hw.ahead]
  exact h _ (hw.noting c)

theorem gives_getContext (id : ContextId) :
    (getContext id).Gives (Shows s l) (.ok (s.get id)) (Shows s l) :=
  gives_request fun _ hw => ⟨by rw [hw.contexts], hw⟩

theorem gives_findContext (o : Owner) : (findContext o).Gives (Shows s l)
    (.ok (if l.headD false then none else s.find o)) (Shows s l.tail) := by
  apply gives_request
  intro w hw
  have hunseen : w.disruption.unseen w.searches = l.headD false := by
    have := congrFun (congrArg Disruption.unseen hw.ahead) 0
    cases l <;> exact this
  refine ⟨by rw [hunseen, hw.contexts], hw.contexts, ?_⟩
  rw [ahead_search, hw.ahead, Disruption.afterSearch_missing]

theorem gives_createContext_ok {d : Draft} {r : Record} {s' : ContextStore}
    (h : s.create d = .ok (r, s')) :
    (createContext d).Gives (Shows s l) (.ok r) (Shows s' l) := by
  apply gives_request
  intro w hw
  have himposed : w.disruption.imposed = none := congrArg Disruption.imposed hw.ahead
  rw [himposed, hw.contexts, h]
  exact ⟨rfl, rfl, hw.ahead⟩

theorem gives_createContext_error {d : Draft} {e : StorageError} (h : s.create d = .error e) :
    (createContext d).Gives (Shows s l) (.error e) (Shows s l) := by
  apply gives_request
  intro w hw
  have himposed : w.disruption.imposed = none := congrArg Disruption.imposed hw.ahead
  rw [himposed, hw.contexts, h]
  exact ⟨rfl, hw⟩

end Shows

end World

end Clearance
