/-! Computations that change a state and may fail. What a computation has changed stays changed
when it fails. -/
namespace Clearance

/-- A computation over the state `σ` that yields `α` or fails with `ε`. -/
abbrev Act (σ ε α : Type) := ExceptT ε (StateM σ) α

namespace Act

variable {σ τ ε ε' α β : Type}

/-- The outcome and the state that is left. -/
def runFrom (t : Act σ ε α) (s : σ) : Except ε α × σ := t s

def ofFun (f : σ → Except ε α × σ) : Act σ ε α := f

def ofExcept (r : Except ε α) : Act σ ε α := ofFun fun s => (r, s)

def on (get : τ → σ) (set : σ → τ → τ) (t : Act σ ε α) : Act τ ε α := ofFun fun s =>
  let (r, p) := t.runFrom (get s)
  (r, set p s)

def mapError (f : ε → ε') (t : Act σ ε α) : Act σ ε' α := ofFun fun s =>
  let (r, s) := t.runFrom s
  (r.mapError f, s)

/-- Yields the outcome, be it a failure. -/
def attempt (t : Act σ ε α) : Act σ ε' (Except ε α) := ofFun fun s =>
  let (r, s) := t.runFrom s
  (.ok r, s)

@[simp] theorem runFrom_ofFun (f : σ → Except ε α × σ) (s : σ) : (ofFun f).runFrom s = f s := rfl

@[simp] theorem runFrom_pure (a : α) (s : σ) : (pure a : Act σ ε α).runFrom s = (.ok a, s) := rfl

@[simp] theorem runFrom_throw (e : ε) (s : σ) :
    (throw e : Act σ ε α).runFrom s = (.error e, s) := rfl

@[simp] theorem runFrom_get (s : σ) : (get : Act σ ε σ).runFrom s = (.ok s, s) := rfl

@[simp] theorem runFrom_modify (f : σ → σ) (s : σ) :
    (modify f : Act σ ε PUnit).runFrom s = (.ok ⟨⟩, f s) := rfl

theorem runFrom_bind (t : Act σ ε α) (f : α → Act σ ε β) (s : σ) :
    (t >>= f).runFrom s = match t.runFrom s with
      | (.ok a, s) => (f a).runFrom s
      | (.error e, s) => (.error e, s) := by
  show (ExceptT.bind t f) s = _
  simp only [ExceptT.bind, ExceptT.mk, runFrom]
  show (StateT.bind t (ExceptT.bindCont f)) s = _
  simp only [StateT.bind]
  cases h : t s with
  | mk r s' =>
    cases r
    · simp [bind, ExceptT.bindCont]; rfl
    · simp [bind, ExceptT.bindCont]

theorem runFrom_bind_ok {t : Act σ ε α} {s s' : σ} {a : α} (h : t.runFrom s = (.ok a, s'))
    (f : α → Act σ ε β) : (t >>= f).runFrom s = (f a).runFrom s' := by
  rw [runFrom_bind, h]

theorem runFrom_bind_error {t : Act σ ε α} {s s' : σ} {e : ε}
    (h : t.runFrom s = (.error e, s')) (f : α → Act σ ε β) :
    (t >>= f).runFrom s = (.error e, s') := by
  rw [runFrom_bind, h]

end Act

end Clearance
