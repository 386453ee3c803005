import Clearance.Act

/-! Conditions before and after a computation, whether it ends well or fails. The rules follow the
way in which computations are put together, so that nothing has to be run to apply them. -/
namespace Clearance

instance Except.decidableEq {ε α : Type} [DecidableEq ε] [DecidableEq α] :
    DecidableEq (Except ε α)
  | .ok a, .ok b => decidable_of_iff (a = b) ⟨congrArg _, Except.ok.inj⟩
  | .error a, .error b => decidable_of_iff (a = b) ⟨congrArg _, Except.error.inj⟩
  | .ok _, .error _ => isFalse nofun
  | .error _, .ok _ => isFalse nofun

theorem Except.eq_ok_of_toOption {ε α : Type} {r : Except ε α} {a : α}
    (h : r.toOption = some a) : r = .ok a := by
  cases r with
  | error e => cases h
  | ok b => exact congrArg Except.ok (Option.some.inj h)

theorem Except.map_eq_ok {ε α β : Type} {r : Except ε α} {f : α → β} {b : β} :
    r.map f = .ok b ↔ ∃ a, r = .ok a ∧ f a = b := by
  cases r with
  | error e => simp [Except.map]
  | ok a => simp [Except.map]

theorem Except.map_eq_error {ε α β : Type} {r : Except ε α} {f : α → β} {e : ε} :
    r.map f = .error e ↔ r = .error e := by
  cases r with
  | error e => simp [Except.map]
  | ok a => simp [Except.map]

theorem Except.mapError_eq_ok {ε ε' α : Type} {r : Except ε α} {f : ε → ε'} {a : α} :
    r.mapError f = .ok a ↔ r = .ok a := by
  cases r with
  | error e => exact ⟨nofun, nofun⟩
  | ok b => exact ⟨fun h => congrArg _ (Except.ok.inj h), fun h => congrArg _ (Except.ok.inj h)⟩

namespace Act

variable {σ τ ε ε' α β : Type}

/-- A good end satisfies `Q` and a failure satisfies `E`. -/
def Ends (Q : α → σ → Prop) (E : ε → σ → Prop) : Except ε α × σ → Prop
  | (.ok a, s) => Q a s
  | (.error e, s) => E e s

/-- From states with `P` the computation ends well with `Q`, or it fails with `E`. -/
def Meets (P : σ → Prop) (t : Act σ ε α) (Q : α → σ → Prop) (E : ε → σ → Prop) : Prop :=
  ∀ s, P s → Ends Q E (t.runFrom s)

/-- What holds before still holds afterwards, also after a failure. -/
def Keeps (I : σ → Prop) (t : Act σ ε α) : Prop := ∀ s, I s → I (t.runFrom s).2

/-- What holds before still holds afterwards, and a good end yields a value with `Q`. -/
def Yields (I : σ → Prop) (t : Act σ ε α) (Q : α → Prop) : Prop :=
  t.Meets I (fun a s => I s ∧ Q a) fun _ => I

/-- From states with `P` the computation has this outcome and leaves a state with `Q`. -/
def Gives (P : σ → Prop) (t : Act σ ε α) (r : Except ε α) (Q : σ → Prop) : Prop :=
  ∀ s, P s → (t.runFrom s).1 = r ∧ Q (t.runFrom s).2

/-- The computation does not change this part of the state. -/
def Leaves (f : σ → β) (t : Act σ ε α) : Prop := ∀ s, f (t.runFrom s).2 = f s

/-- The outcome, and what becomes of this part of the state, depend on this part alone. -/
def Within (f : σ → β) (t : Act σ ε α) : Prop := ∀ s s', f s = f s' →
  (t.runFrom s).1 = (t.runFrom s').1 ∧ f (t.runFrom s).2 = f (t.runFrom s').2

/-- From states with this relation the computation has one outcome and leaves states with it. -/
def Respects (R : σ → σ → Prop) (t : Act σ ε α) : Prop := ∀ s s', R s s' →
  (t.runFrom s).1 = (t.runFrom s').1 ∧ R (t.runFrom s).2 (t.runFrom s').2

/-- From states with the relation `P` the computation has one outcome. A good end leaves states
with `Q`, a failure leaves states with `E`. -/
def Matches (P : σ → σ → Prop) (t : Act σ ε α) (Q : α → σ → σ → Prop)
    (E : ε → σ → σ → Prop) : Prop := ∀ s s', P s s' →
  (t.runFrom s).1 = (t.runFrom s').1 ∧
    Ends (fun a u => Q a u (t.runFrom s').2) (fun e u => E e u (t.runFrom s').2) (t.runFrom s)

theorem runFrom_mapError (f : ε → ε') (t : Act σ ε α) (s : σ) :
    (t.mapError f).runFrom s = ((t.runFrom s).1.mapError f, (t.runFrom s).2) := rfl

theorem runFrom_attempt (t : Act σ ε α) (s : σ) :
    (t.attempt : Act σ ε' _).runFrom s = (.ok (t.runFrom s).1, (t.runFrom s).2) := rfl

theorem runFrom_on (get : τ → σ) (set : σ → τ → τ) (t : Act σ ε α) (s : τ) :
    (t.on get set).runFrom s = ((t.runFrom (get s)).1, set (t.runFrom (get s)).2 s) := rfl

theorem on_bind {get : τ → σ} {set : σ → τ → τ} (hget : ∀ p s, get (set p s) = p)
    (hset : ∀ p q s, set p (set q s) = set p s) (t : Act σ ε α) (f : α → Act σ ε β) :
    (t >>= f).on get set = t.on get set >>= fun a => (f a).on get set := by
  funext s
  show ((t >>= f).on get set).runFrom s = (t.on get set >>= _).runFrom s
  rw [runFrom_on, runFrom_bind, runFrom_bind, runFrom_on]
  match t.runFrom (get s) with
  | (.error e, p) => rfl
  | (.ok a, p) =>
    simp only [runFrom_on, hget, hset]

theorem runFrom_map (f : α → β) (t : Act σ ε α) (s : σ) :
    (f <$> t).runFrom s = ((t.runFrom s).1.map f, (t.runFrom s).2) := by
  rw [← bind_pure_comp, runFrom_bind]
  obtain ⟨r, s'⟩ := t.runFrom s
  cases r <;> rfl

theorem ok_of_bind {t : Act σ ε β} {f : β → Act σ ε α} {s s' : σ} {a : α}
    (h : (t >>= f).runFrom s = (.ok a, s')) :
    ∃ b s₁, t.runFrom s = (.ok b, s₁) ∧ (f b).runFrom s₁ = (.ok a, s') := by
  rw [runFrom_bind] at h
  generalize t.runFrom s = x at h
  match x with
  | (.ok b, s₁) => exact ⟨b, s₁, rfl, h⟩
  | (.error e, s₁) => cases h

section Meets

variable {P P' : σ → Prop} {Q Q' : α → σ → Prop} {E E' : ε → σ → Prop}

/-- What is known of a run that ended well. -/
theorem Meets.ok {t : Act σ ε α} (h : t.Meets P Q E) {s s' : σ} {a : α} (hs : P s)
    (hr : t.runFrom s = (.ok a, s')) : Q a s' := by
  have := h s hs
  rwa [hr] at this

theorem Meets.error {t : Act σ ε α} (h : t.Meets P Q E) {s s' : σ} {e : ε} (hs : P s)
    (hr : t.runFrom s = (.error e, s')) : E e s' := by
  have := h s hs
  rwa [hr] at this

theorem Meets.of_isOk {J : σ → Prop} {t : Act σ ε α} (h : t.Meets P (fun _ => J) E) {s : σ}
    (hs : P s) (hok : (t.runFrom s).1.isOk = true) : J (t.runFrom s).2 := by
  have := h s hs
  generalize t.runFrom s = x at this hok
  match x with
  | (.ok a, s') => exact this
  | (.error e, s') => cases hok

theorem Meets.of_not_isOk {J : σ → Prop} {t : Act σ ε α} (h : t.Meets P Q fun _ => J) {s : σ}
    (hs : P s) (hfails : (t.runFrom s).1.isOk = false) : J (t.runFrom s).2 := by
  have := h s hs
  generalize t.runFrom s = x at this hfails
  match x with
  | (.ok a, s') => cases hfails
  | (.error e, s') => exact this

theorem Meets.exists_ok {t : Act σ ε α} (h : t.Meets P Q E) (hE : ∀ e s, ¬ E e s) {s : σ}
    (hs : P s) : ∃ a, (t.runFrom s).1 = .ok a := by
  have := h s hs
  generalize t.runFrom s = x at this
  match x with
  | (.ok a, _) => exact ⟨a, rfl⟩
  | (.error e, s') => exact absurd this (hE e s')

/-- What is known of the state that is left, if it does not depend on the outcome. -/
theorem Meets.left {J : σ → Prop} {t : Act σ ε α} (h : t.Meets P (fun _ => J) fun _ => J)
    {s : σ} (hs : P s) : J (t.runFrom s).2 := by
  have := h s hs
  generalize t.runFrom s = x at this
  match x with
  | (.ok _, _) | (.error _, _) => exact this

theorem Meets.mono {t : Act σ ε α} (h : t.Meets P Q E) (hP : ∀ s, P' s → P s)
    (hQ : ∀ a s, Q a s → Q' a s) (hE : ∀ e s, E e s → E' e s) : t.Meets P' Q' E' := by
  intro s hs
  have := h s (hP s hs)
  generalize t.runFrom s = x at this
  match x with
  | (.ok a, s') => exact hQ a s' this
  | (.error e, s') => exact hE e s' this

theorem Meets.and {t : Act σ ε α} (h : t.Meets P Q E) (h' : t.Meets P' Q' E') :
    t.Meets (fun s => P s ∧ P' s) (fun a s => Q a s ∧ Q' a s) fun e s => E e s ∧ E' e s := by
  intro s ⟨hP, hP'⟩
  have hends := h s hP
  have hends' := h' s hP'
  generalize t.runFrom s = x at hends hends'
  match x with
  | (.ok _, _) | (.error _, _) => exact ⟨hends, hends'⟩

theorem Meets.and_keeps {I : σ → Prop} {t : Act σ ε α} (h : t.Meets P Q E)
    (ht : ∀ s, I s → I (t.runFrom s).2) :
    t.Meets (fun s => P s ∧ I s) (fun a s => Q a s ∧ I s) fun e s => E e s ∧ I s := by
  intro s ⟨hP, hI⟩
  have hends := h s hP
  have hleft := ht s hI
  generalize t.runFrom s = x at hends hleft
  match x with
  | (.ok _, _) | (.error _, _) => exact ⟨hends, hleft⟩

theorem meets_pure {a : α} (h : ∀ s, P s → Q a s) : (pure a : Act σ ε α).Meets P Q E := h

theorem meets_throw {e : ε} (h : ∀ s, P s → E e s) : (throw e : Act σ ε α).Meets P Q E := h

theorem meets_modify {f : σ → σ} {Q : PUnit → σ → Prop} (h : ∀ s, P s → Q ⟨⟩ (f s)) :
    (modify f : Act σ ε PUnit).Meets P Q E := h

theorem meets_ofExcept {r : Except ε α} (hok : ∀ a s, r = .ok a → P s → Q a s)
    (herror : ∀ e s, r = .error e → P s → E e s) : (ofExcept r : Act σ ε α).Meets P Q E := by
  intro s hs
  cases r with
  | ok a => exact hok a s rfl hs
  | error e => exact herror e s rfl hs

theorem Meets.bind {R : β → σ → Prop} {t : Act σ ε β} {f : β → Act σ ε α} (ht : t.Meets P R E)
    (hf : ∀ b, (f b).Meets (R b) Q E) : (t >>= f).Meets P Q E := by
  intro s hs
  have h := ht s hs
  rw [runFrom_bind]
  generalize t.runFrom s = x at h
  match x with
  | (.ok b, s') => exact hf b s' h
  | (.error e, s') => exact h

/-- The state that is read is the one the computation goes on from. -/
theorem meets_get_bind {f : σ → Act σ ε α} (hf : ∀ x, (f x).Meets (fun s => P s ∧ s = x) Q E) :
    ((get : Act σ ε σ) >>= f).Meets P Q E := fun s hs => by
  rw [runFrom_bind_ok (runFrom_get s)]
  exact hf s s ⟨hs, rfl⟩

theorem Meets.mapError {t : Act σ ε' α} {g : ε' → ε} (h : t.Meets P Q fun e => E (g e)) :
    (t.mapError g).Meets P Q E := by
  intro s hs
  have := h s hs
  rw [runFrom_mapError]
  generalize t.runFrom s = x at this
  match x with
  | (.ok _, _) | (.error _, _) => exact this

theorem Meets.map {t : Act σ ε β} {f : β → α} (h : t.Meets P (fun b => Q (f b)) E) :
    (f <$> t).Meets P Q E := by
  rw [← bind_pure_comp]
  exact h.bind fun _ => meets_pure fun _ h => h

theorem Meets.attempt {t : Act σ ε' α} {Q : Except ε' α → σ → Prop}
    (h : t.Meets P (fun a => Q (.ok a)) fun e => Q (.error e)) :
    (t.attempt : Act σ ε _).Meets P Q E := by
  intro s hs
  have := h s hs
  rw [runFrom_attempt]
  generalize t.runFrom s = x at this
  match x with
  | (.ok _, _) | (.error _, _) => exact this

/-- On a part of a larger state: the conditions are those of the part, put back into the whole. -/
theorem Meets.on {P : τ → Prop} {Q : α → τ → Prop} {E : ε → τ → Prop} {get : τ → σ}
    {set : σ → τ → τ} {t : Act σ ε α} (hget : ∀ s, set (get s) s = s)
    (h : ∀ s, t.Meets (fun p => P (set p s)) (fun a p => Q a (set p s)) fun e p => E e (set p s)) :
    (t.on get set).Meets P Q E := by
  intro s hs
  have hs' : P (set (get s) s) := (hget s).symm ▸ hs
  have := h s (get s) hs'
  rw [runFrom_on]
  generalize t.runFrom (get s) = x at this
  match x with
  | (.ok _, _) | (.error _, _) => exact this

theorem Meets.keeps {I : σ → Prop} {t : Act σ ε α} (h : t.Meets I Q E)
    (hQ : ∀ a s, Q a s → I s) (hE : ∀ e s, E e s → I s) : t.Keeps I := by
  intro s hs
  have := h s hs
  generalize t.runFrom s = x at this
  match x with
  | (.ok a, s') => exact hQ a s' this
  | (.error e, s') => exact hE e s' this

end Meets

section Keeps

variable {I : σ → Prop}

theorem keeps_pure (a : α) : (pure a : Act σ ε α).Keeps I := fun _ h => h

theorem keeps_throw (e : ε) : (throw e : Act σ ε α).Keeps I := fun _ h => h

theorem keeps_ofExcept (r : Except ε α) : (ofExcept r : Act σ ε α).Keeps I := fun _ h => h

theorem keeps_get : (get : Act σ ε σ).Keeps I := fun _ h => h

theorem keeps_modify {f : σ → σ} (h : ∀ s, I s → I (f s)) :
    (modify f : Act σ ε PUnit).Keeps I := h

theorem meets_of_left {J : σ → Prop} {t : Act σ ε α} (h : ∀ s, I s → J (t.runFrom s).2) :
    t.Meets I (fun _ => J) fun _ => J := by
  intro s hs
  have := h s hs
  generalize t.runFrom s = x at this
  match x with
  | (.ok _, _) | (.error _, _) => exact this

theorem meets_true {t : Act σ ε α} : t.Meets I (fun _ _ => True) fun _ _ => True :=
  meets_of_left fun _ _ => trivial

theorem Keeps.meets {t : Act σ ε α} (h : t.Keeps I) :
    t.Meets I (fun _ => I) fun _ => I := meets_of_left h

theorem Keeps.congr {J : σ → Prop} {t : Act σ ε α} (h : t.Keeps I) (hIJ : ∀ s, J s ↔ I s) :
    t.Keeps J := fun s hs => (hIJ _).2 (h s ((hIJ s).1 hs))

theorem Keeps.bind {t : Act σ ε β} {f : β → Act σ ε α} (ht : t.Keeps I)
    (hf : ∀ b, (f b).Keeps I) : (t >>= f).Keeps I :=
  (ht.meets.bind fun b => (hf b).meets).keeps (fun _ _ h => h) fun _ _ h => h

theorem Keeps.left_bind {t : Act σ ε β} {f : β → Act σ ε α} (hf : ∀ b, (f b).Keeps I) {s : σ}
    (ht : I (t.runFrom s).2) : I ((t >>= f).runFrom s).2 := by
  rw [runFrom_bind]
  generalize t.runFrom s = x at ht
  match x with
  | (.ok b, s') => exact hf b s' ht
  | (.error e, s') => exact ht

theorem Keeps.map {t : Act σ ε β} (h : t.Keeps I) (f : β → α) : (f <$> t).Keeps I := fun s hs => by
  rw [runFrom_map]
  exact h s hs

theorem Keeps.mapError {t : Act σ ε' α} (h : t.Keeps I) (g : ε' → ε) : (t.mapError g).Keeps I := h

theorem Keeps.attempt {t : Act σ ε' α} (h : t.Keeps I) : (t.attempt : Act σ ε _).Keeps I := h

end Keeps

section Yields

variable {I : σ → Prop} {Q : α → Prop}

theorem Yields.keeps {t : Act σ ε α} (h : t.Yields I Q) : t.Keeps I :=
  Meets.keeps h (fun _ _ h => h.1) fun _ _ h => h

theorem Keeps.yields {t : Act σ ε α} (h : t.Keeps I) : t.Yields I fun _ => True :=
  h.meets.mono (fun _ h => h) (fun _ _ h => ⟨h, trivial⟩) fun _ _ h => h

theorem yields_pure {a : α} (h : Q a) : (pure a : Act σ ε α).Yields I Q := fun _ hs => ⟨hs, h⟩

theorem Yields.bind {R : β → Prop} {t : Act σ ε β} {f : β → Act σ ε α} (ht : t.Yields I R)
    (hf : ∀ b, R b → (f b).Yields I Q) : (t >>= f).Yields I Q :=
  Meets.bind ht fun b s hs => hf b hs.2 s hs.1

theorem Keeps.bind_yields {t : Act σ ε β} {f : β → Act σ ε α} (ht : t.Keeps I)
    (hf : ∀ b, (f b).Yields I Q) : (t >>= f).Yields I Q := ht.yields.bind fun b _ => hf b

end Yields

section Gives

variable {P Q R : σ → Prop} {r : Except ε α}

theorem gives_pure {a : α} (h : ∀ s, P s → Q s) : (pure a : Act σ ε α).Gives P (.ok a) Q :=
  fun s hs => ⟨rfl, h s hs⟩

theorem gives_throw {e : ε} (h : ∀ s, P s → Q s) : (throw e : Act σ ε α).Gives P (.error e) Q :=
  fun s hs => ⟨rfl, h s hs⟩

theorem gives_ofExcept {x : Except ε α} (h : x = r) : (ofExcept x : Act σ ε α).Gives P r P :=
  fun _ hs => ⟨h, hs⟩

theorem gives_modify {f : σ → σ} (h : ∀ s, P s → Q (f s)) :
    (modify f : Act σ ε PUnit).Gives P (.ok ⟨⟩) Q := fun s hs => ⟨rfl, h s hs⟩

theorem Gives.weaken {R : σ → Prop} {t : Act σ ε α} (h : t.Gives P r Q) (hQ : ∀ s, Q s → R s) :
    t.Gives P r R := fun s hs => ⟨(h s hs).1, hQ _ (h s hs).2⟩

theorem Gives.bind {b : β} {t : Act σ ε β} {f : β → Act σ ε α} (ht : t.Gives P (.ok b) R)
    (hf : (f b).Gives R r Q) : (t >>= f).Gives P r Q := by
  intro s hs
  obtain ⟨hb, hR⟩ := ht s hs
  rw [runFrom_bind_ok (Prod.ext hb rfl)]
  exact hf _ hR

theorem Gives.bind_error {e : ε} {t : Act σ ε β} {f : β → Act σ ε α}
    (ht : t.Gives P (.error e) Q) : (t >>= f).Gives P (.error e) Q := by
  intro s hs
  obtain ⟨he, hQ⟩ := ht s hs
  rw [runFrom_bind_error (Prod.ext he rfl)]
  exact ⟨rfl, hQ⟩

theorem Gives.map {r : Except ε β} {t : Act σ ε β} (h : t.Gives P r Q) (f : β → α) :
    (f <$> t).Gives P (r.map f) Q := by
  intro s hs
  obtain ⟨hr, hQ⟩ := h s hs
  rw [runFrom_map]
  exact ⟨congrArg (Except.map f) hr, hQ⟩

theorem Gives.mapError {r : Except ε' α} {t : Act σ ε' α} (h : t.Gives P r Q) (g : ε' → ε) :
    (t.mapError g).Gives P (r.mapError g) Q := fun s hs =>
  ⟨congrArg (Except.mapError g) (h s hs).1, (h s hs).2⟩

theorem Gives.attempt {r : Except ε' α} {t : Act σ ε' α} (h : t.Gives P r Q) :
    (t.attempt : Act σ ε _).Gives P (.ok r) Q := fun s hs =>
  ⟨congrArg Except.ok (h s hs).1, (h s hs).2⟩

end Gives

section Leaves

variable {γ : Type} {f : σ → γ}

theorem leaves_pure (a : α) : (pure a : Act σ ε α).Leaves f := fun _ => rfl

theorem leaves_throw (e : ε) : (throw e : Act σ ε α).Leaves f := fun _ => rfl

theorem leaves_ofExcept (r : Except ε α) : (ofExcept r : Act σ ε α).Leaves f := fun _ => rfl

theorem leaves_modify {g : σ → σ} (h : ∀ s, f (g s) = f s) :
    (modify g : Act σ ε PUnit).Leaves f := h

theorem Leaves.bind {t : Act σ ε β} {g : β → Act σ ε α} (ht : t.Leaves f)
    (hg : ∀ b, (g b).Leaves f) : (t >>= g).Leaves f := fun s =>
  Keeps.bind (I := fun s' => f s' = f s) (fun s' h => (ht s').trans h)
    (fun b s' h => (hg b s').trans h) s rfl

theorem Leaves.mapError {t : Act σ ε' α} (h : t.Leaves f) (g : ε' → ε) :
    (t.mapError g).Leaves f := h

theorem Leaves.attempt {t : Act σ ε' α} (h : t.Leaves f) : (t.attempt : Act σ ε _).Leaves f := h

end Leaves

section Respects

variable {R : σ → σ → Prop}

theorem respects_ofExcept (r : Except ε α) : (ofExcept r : Act σ ε α).Respects R :=
  fun _ _ h => ⟨rfl, h⟩

theorem respects_modify {f : σ → σ} (h : ∀ s s', R s s' → R (f s) (f s')) :
    (modify f : Act σ ε PUnit).Respects R := fun s s' hs => ⟨rfl, h s s' hs⟩

theorem Respects.bind {t : Act σ ε β} {g : β → Act σ ε α} (ht : t.Respects R)
    (hg : ∀ b, (g b).Respects R) : (t >>= g).Respects R := by
  intro s s' h
  obtain ⟨hr, hR⟩ := ht s s' h
  rw [runFrom_bind, runFrom_bind]
  generalize t.runFrom s = x at hr hR
  generalize t.runFrom s' = y at hr hR
  match x, y with
  | (.ok b, u), (r, u') =>
    cases hr
    exact hg b u u' hR
  | (.error e, u), (r, u') =>
    cases hr
    exact ⟨rfl, hR⟩

theorem Respects.mapError {t : Act σ ε' α} (h : t.Respects R) (g : ε' → ε) :
    (t.mapError g).Respects R := fun s s' hs =>
  ⟨congrArg (Except.mapError g) (h s s' hs).1, (h s s' hs).2⟩

theorem Respects.attempt {t : Act σ ε' α} (h : t.Respects R) :
    (t.attempt : Act σ ε _).Respects R := fun s s' hs =>
  ⟨congrArg Except.ok (h s s' hs).1, (h s s' hs).2⟩

end Respects

section Matches

variable {P R : σ → σ → Prop} {Q Q' : α → σ → σ → Prop} {E E' : ε → σ → σ → Prop}

theorem matches_pure {a : α} (h : ∀ s s', P s s' → Q a s s') :
    (pure a : Act σ ε α).Matches P Q E := fun s s' hs => ⟨rfl, h s s' hs⟩

theorem matches_throw {e : ε} (h : ∀ s s', P s s' → E e s s') :
    (throw e : Act σ ε α).Matches P Q E := fun s s' hs => ⟨rfl, h s s' hs⟩

theorem matches_of_left {t : Act σ ε α} (h : ∀ s s', P s s' →
    (t.runFrom s).1 = (t.runFrom s').1 ∧ R (t.runFrom s).2 (t.runFrom s').2) :
    t.Matches P (fun _ => R) fun _ => R := by
  intro s s' hs
  obtain ⟨hr, hR⟩ := h s s' hs
  refine ⟨hr, ?_⟩
  generalize t.runFrom s = x at hR
  match x with
  | (.ok _, _) | (.error _, _) => exact hR

theorem Respects.matches {t : Act σ ε α} (h : t.Respects R) :
    t.Matches R (fun _ => R) fun _ => R := matches_of_left h

theorem Matches.mono {t : Act σ ε α} (h : t.Matches P Q E)
    (hQ : ∀ a s s', Q a s s' → Q' a s s') (hE : ∀ e s s', E e s s' → E' e s s') :
    t.Matches P Q' E' := by
  intro s s' hs
  obtain ⟨hr, hends⟩ := h s s' hs
  refine ⟨hr, ?_⟩
  generalize t.runFrom s = x at hends
  match x with
  | (.ok a, u) => exact hQ a u _ hends
  | (.error e, u) => exact hE e u _ hends

theorem Matches.left {t : Act σ ε α} (h : t.Matches P Q E) (hQ : ∀ a s s', Q a s s' → R s s')
    (hE : ∀ e s s', E e s s' → R s s') {s s' : σ} (hs : P s s') :
    (t.runFrom s).1 = (t.runFrom s').1 ∧ R (t.runFrom s).2 (t.runFrom s').2 := by
  obtain ⟨hr, hends⟩ := h s s' hs
  refine ⟨hr, ?_⟩
  generalize t.runFrom s = x at hends
  match x with
  | (.ok a, u) => exact hQ a u _ hends
  | (.error e, u) => exact hE e u _ hends

theorem Matches.bind {S : β → σ → σ → Prop} {t : Act σ ε β} {f : β → Act σ ε α}
    (ht : t.Matches P S E) (hf : ∀ b, (f b).Matches (S b) Q E) : (t >>= f).Matches P Q E := by
  intro s s' hs
  obtain ⟨hr, hends⟩ := ht s s' hs
  rw [runFrom_bind, runFrom_bind]
  generalize t.runFrom s = x at hr hends
  generalize t.runFrom s' = y at hr hends
  match x, y with
  | (.ok b, u), (r, u') =>
    cases hr
    exact hf b u u' hends
  | (.error e, u), (r, u') =>
    cases hr
    exact ⟨rfl, hends⟩

theorem Matches.mapError {t : Act σ ε' α} {g : ε' → ε} (h : t.Matches P Q fun e => E (g e)) :
    (t.mapError g).Matches P Q E := by
  intro s s' hs
  obtain ⟨hr, hends⟩ := h s s' hs
  refine ⟨congrArg (Except.mapError g) hr, ?_⟩
  rw [runFrom_mapError, runFrom_mapError]
  generalize t.runFrom s = x at hends
  match x with
  | (.ok _, _) | (.error _, _) => exact hends

theorem Matches.attempt {t : Act σ ε' α} {Q : Except ε' α → σ → σ → Prop}
    (h : t.Matches P (fun a => Q (.ok a)) fun e => Q (.error e)) :
    (t.attempt : Act σ ε _).Matches P Q E := by
  intro s s' hs
  obtain ⟨hr, hends⟩ := h s s' hs
  refine ⟨congrArg Except.ok hr, ?_⟩
  rw [runFrom_attempt, runFrom_attempt]
  generalize t.runFrom s = x at hends
  match x with
  | (.ok _, _) | (.error _, _) => exact hends

end Matches

section Within

variable {γ : Type} {f : σ → γ}

theorem within_ofExcept (r : Except ε α) : (ofExcept r : Act σ ε α).Within f :=
  respects_ofExcept r

theorem Within.bind {t : Act σ ε β} {g : β → Act σ ε α} (ht : t.Within f)
    (hg : ∀ b, (g b).Within f) : (t >>= g).Within f := Respects.bind ht hg

theorem Within.mapError {t : Act σ ε' α} (h : t.Within f) (g : ε' → ε) :
    (t.mapError g).Within f := Respects.mapError h g

theorem Within.attempt {t : Act σ ε' α} (h : t.Within f) :
    (t.attempt : Act σ ε _).Within f := Respects.attempt h

end Within

end Act

end Clearance
