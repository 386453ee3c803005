import Clearance.Object
import Clearance.Proofs.Condition
import Clearance.Proofs.Context.Ascent

/-! Finding and making contexts as a function of the contexts. A climb goes up from an object to the
first context that is found, or to the root; a descent makes what is missing on the way down. -/
namespace Clearance

/-- Whether a store has failed, or has lost what it had said to be there. -/
def Error.isOfStore : Error → Bool
  | .storage _ | .contextNotFound .. => true
  | _ => false

def Context.childOf (parent : Context) (r : Record) : Except Error Context :=
  match ofRecord r with
  | .error e => .error e
  | .ok c =>
    if c.record.parent = some parent.id then .ok c else .error (.corruptPath c.id c.path)

theorem Context.record_of_childOf {p c : Context} {r : Record} (h : p.childOf r = .ok c) :
    c.record = r := by
  unfold childOf at h
  split at h
  · cases h
  next c' hc' =>
    split at h
    · cases h
      exact record_of_ofRecord hc'
    · cases h

theorem Context.childOf_error {p : Context} {r : Record} {e : Error}
    (h : p.childOf r = .error e) : e = .corruptPath r.id r.path := by
  unfold childOf at h
  split at h
  · next hc =>
    cases h
    exact ofRecord_error hc
  next c' hc' =>
    split at h
    · cases h
    · cases h
      cases record_of_ofRecord hc'
      rfl

namespace ContextStore

/-- The root as a resolver gets it that has read this root, or none yet. -/
def rootFor (s : ContextStore) : Option Context → Except Error Context
  | some c => .ok c
  | none =>
    match s.get rootId with
    | none => .error (.configuration s!"root context {Id.text rootId} does not exist")
    | some r => Context.ofRecord r

def createOrFind (s : ContextStore) (d : Draft) : Except Error Record × ContextStore :=
  match s.create d with
  | .ok (r, s') => (.ok r, s')
  | .error (.contextConflict ..) =>
    match s.find d.owner with
    | some r => (.ok r, s)
    | none => (.error (.contextNotFound d.owner.level d.owner.instanceId), s)
  | .error e => (.error (.storage e), s)

/-- Makes the context of an owner below another one, or finds it there. -/
def place (s : ContextStore) (parent : Context) (w : Owner) : Except Error Context × ContextStore :=
  match s.createOrFind (.below parent.record w) with
  | (.ok r, s') => (parent.childOf r, s')
  | (.error e, s') => (.error e, s')

/-- Places the owners one below the other. -/
def descend (s : ContextStore) (c : Context) : List Owner → Except Error Context × ContextStore
  | [] => (.ok c, s)
  | w :: ws =>
    match s.place c w with
    | (.ok c', s') => s'.descend c' ws
    | (.error e, s') => (.error e, s')

/-- What a search for an owner gives that may be missed although it is stored. -/
def glimpse (s : ContextStore) (missed : Owner → Bool) (w : Owner) : Option Record :=
  if missed w then none else s.find w

/-- Which of the searches on the way up see nothing although they could. The way ends where a
search sees something. -/
def missedOn (s : ContextStore) (missed : Owner → Bool) (way : List Owner) : List Bool :=
  (way.takeWhile fun w => (s.glimpse missed w).isNone).map missed

/-- The first context on the way up that is seen, else the root, and the owners that were passed,
the topmost first. -/
def climb {Obj : Type} [DomainObject Obj] (s : ContextStore) (top : Except Error Context)
    (missed : Owner → Bool) (parents : ParentRegistry) (limit : Nat) :
    Nat → Obj → Except Error (Context × List Owner)
  | left, o =>
    match s.glimpse missed (DomainObject.owner o), parents.parentOf o, left with
    | some r, _, _ => (Context.ofRecord r).map (·, [])
    | none, none, _ => top.map (·, [DomainObject.owner o])
    | none, some _, 0 => .error (.beyond limit)
    | none, some p, left + 1 =>
      (s.climb top missed parents limit left p).map
        fun x => (x.1, x.2 ++ [DomainObject.owner o])

/-- What comes of a climb: a failure, or what the descent from there makes. -/
def land (s : ContextStore) :
    Except Error (Context × List Owner) → Except Error Context × ContextStore
  | .ok (c, ws) => s.descend c ws
  | .error e => (.error e, s)

section Place

variable {s s' : ContextStore} {c c' : Context} {w : Owner} {ws : List Owner} {e : Error}

theorem create_of_blank {d : Draft} (h : Text.allBlank d.owner.level = true) :
    s.create d = .error (.invalidInput "context level cannot be empty") := by
  rw [create, if_pos h]

theorem create_of_fresh {d : Draft} {p : Record} (hlevel : ¬Text.allBlank d.owner.level = true)
    (hparent : s.get d.parent = some p) (hnew : s.owners.get? d.owner = none) :
    ∃ s', s.create d = .ok (d.record s.nextId, s') := by
  have hstored : s.records.contains d.parent = true := by
    rw [SortedMap.contains, show s.records.get? d.parent = some p from hparent]
    rfl
  have howner : s.owners.contains d.owner = false := by
    rw [SortedMap.contains, hnew]
    rfl
  rw [create, if_neg hlevel, hstored, howner]
  exact ⟨_, rfl⟩

theorem create_of_stored {d : Draft} {p : Record} {id : ContextId}
    (hlevel : ¬Text.allBlank d.owner.level = true) (hparent : s.get d.parent = some p)
    (hold : s.owners.get? d.owner = some id) :
    s.create d = .error (.contextConflict d.owner.level (some d.owner.instanceId)) := by
  have hstored : s.records.contains d.parent = true := by
    rw [SortedMap.contains, show s.records.get? d.parent = some p from hparent]
    rfl
  have howner : s.owners.contains d.owner = true := by
    rw [SortedMap.contains, hold]
    rfl
  rw [create, if_neg hlevel, hstored, howner]
  rfl

theorem place_of_create {r : Record} (h : s.create (.below c.record w) = .ok (r, s')) :
    s.place c w = (c.childOf r, s') := by
  rw [place, createOrFind, h]

theorem place_of_conflict {r : Record} {level : String} {i : Option InstanceId}
    (h : s.create (.below c.record w) = .error (.contextConflict level i))
    (hfind : s.find w = some r) : s.place c w = (c.childOf r, s) := by
  have hfind' : s.find (Draft.below c.record w).owner = some r := hfind
  rw [place, createOrFind, h]
  simp only [hfind']

theorem place_of_refusal {e : StorageError} (h : s.create (.below c.record w) = .error e)
    (he : ∀ level i, e ≠ .contextConflict level i) : s.place c w = (.error (.storage e), s) := by
  rw [place, createOrFind, h]
  cases e with
  | contextConflict level i => exact absurd rfl (he level i)
  | _ => rfl

/-- Placing makes a record, or finds the one of the owner, or fails without changing anything. -/
theorem place_cases (s : ContextStore) (c : Context) (w : Owner) :
    (∃ r s', s.create (.below c.record w) = .ok (r, s') ∧ s.place c w = (c.childOf r, s')) ∨
    (∃ r, s.find w = some r ∧ s.place c w = (c.childOf r, s)) ∨
    ∃ e, e.isOfStore = true ∧ s.place c w = (.error e, s) := by
  cases hcreate : s.create (.below c.record w) with
  | ok x => exact .inl ⟨x.1, x.2, rfl, place_of_create hcreate⟩
  | error e =>
    by_cases hconflict : ∃ level i, e = .contextConflict level i
    · obtain ⟨level, i, rfl⟩ := hconflict
      cases hfind : s.find w with
      | some r => exact .inr (.inl ⟨r, rfl, place_of_conflict hcreate hfind⟩)
      | none =>
        have hfind' : s.find (Draft.below c.record w).owner = none := hfind
        refine .inr (.inr ⟨.contextNotFound w.level w.instanceId, rfl, ?_⟩)
        rw [place, createOrFind, hcreate]
        simp only [hfind']
        rfl
    · refine .inr (.inr ⟨.storage e, rfl, place_of_refusal hcreate fun level i he => ?_⟩)
      exact hconflict ⟨level, i, he⟩

theorem find_of_place (h : s.place c w = (.ok c', s')) : s'.find w = some c'.record := by
  obtain ⟨r, s₁, hcreate, hplace⟩ | ⟨r, hfind, hplace⟩ | ⟨e, -, hplace⟩ := s.place_cases c w
  · obtain ⟨hc, rfl⟩ := Prod.mk.inj (hplace.symm.trans h)
    rw [Context.record_of_childOf hc]
    exact find_created hcreate
  · obtain ⟨hc, rfl⟩ := Prod.mk.inj (hplace.symm.trans h)
    rw [Context.record_of_childOf hc]
    exact hfind
  · cases hplace.symm.trans h

theorem place_error (h : s.place c w = (.error e, s')) :
    e.isOfStore = true ∨ ∃ id path, e = .corruptPath id path := by
  obtain ⟨r, s₁, -, hplace⟩ | ⟨r, -, hplace⟩ | ⟨e', hstore, hplace⟩ := s.place_cases c w
  · exact .inr ⟨_, _, Context.childOf_error (Prod.mk.inj (hplace.symm.trans h)).1⟩
  · exact .inr ⟨_, _, Context.childOf_error (Prod.mk.inj (hplace.symm.trans h)).1⟩
  · cases hplace.symm.trans h
    exact .inl hstore

theorem size_le_place (s : ContextStore) (c : Context) (w : Owner) :
    s.size ≤ (s.place c w).2.size := by
  obtain ⟨r, s₁, hcreate, hplace⟩ | ⟨r, -, hplace⟩ | ⟨e, -, hplace⟩ := s.place_cases c w
  · rw [hplace]
    exact size_le_of_create hcreate
  · simp only [hplace, Nat.le_refl]
  · simp only [hplace, Nat.le_refl]

theorem descend_cons (s : ContextStore) (c : Context) (w : Owner) (ws : List Owner) :
    (∃ c' s', s.place c w = (.ok c', s') ∧ s.descend c (w :: ws) = s'.descend c' ws) ∨
    ∃ e s', s.place c w = (.error e, s') ∧ s.descend c (w :: ws) = (.error e, s') := by
  rw [descend]
  split
  next c' s' h => exact .inl ⟨c', s', h, rfl⟩
  next e s' h => exact .inr ⟨e, s', h, rfl⟩

theorem descend_cons_ok (h : s.place c w = (.ok c', s')) :
    s.descend c (w :: ws) = s'.descend c' ws := by
  obtain ⟨c₁, s₁, hplace, hrun⟩ | ⟨e, s₁, hplace, -⟩ := s.descend_cons c w ws
  · cases h.symm.trans hplace
    exact hrun
  · cases h.symm.trans hplace

theorem descend_cons_error (h : s.place c w = (.error e, s')) :
    s.descend c (w :: ws) = (.error e, s') := by
  obtain ⟨c₁, s₁, hplace, -⟩ | ⟨e₁, s₁, hplace, hrun⟩ := s.descend_cons c w ws
  · cases h.symm.trans hplace
  · cases h.symm.trans hplace
    exact hrun

theorem descend_singleton (s : ContextStore) (c : Context) (w : Owner) :
    s.descend c [w] = s.place c w := by
  obtain ⟨c₁, s₁, hplace, hrun⟩ | ⟨e, s₁, hplace, hrun⟩ := s.descend_cons c w []
  · exact hrun.trans hplace.symm
  · exact hrun.trans hplace.symm

theorem descend_append {ws' : List Owner} (h : s.descend c ws = (.ok c', s')) :
    s.descend c (ws ++ ws') = s'.descend c' ws' := by
  induction ws generalizing s c with
  | nil =>
    cases h
    rfl
  | cons w ws ih =>
    obtain ⟨c₁, s₁, hplace, hrun⟩ | ⟨e, s₁, -, hrun⟩ := s.descend_cons c w ws
    · rw [List.cons_append, descend_cons_ok hplace]
      exact ih (hrun.symm.trans h)
    · cases hrun.symm.trans h

theorem size_le_descend (s : ContextStore) (c : Context) (ws : List Owner) :
    s.size ≤ (s.descend c ws).2.size := by
  induction ws generalizing s c with
  | nil => exact Nat.le_refl _
  | cons w ws ih =>
    have hsize := s.size_le_place c w
    obtain ⟨c₁, s₁, hplace, hrun⟩ | ⟨e, s₁, hplace, hrun⟩ := s.descend_cons c w ws
    · rw [hplace] at hsize
      rw [hrun]
      exact Nat.le_trans hsize (ih s₁ c₁)
    · rw [hplace] at hsize
      rw [hrun]
      exact hsize

theorem size_place_le_descend (s : ContextStore) (c : Context) (w : Owner) (ws : List Owner) :
    (s.place c w).2.size ≤ (s.descend c (w :: ws)).2.size := by
  obtain ⟨c₁, s₁, hplace, hrun⟩ | ⟨e, s₁, hplace, hrun⟩ := s.descend_cons c w ws
  · rw [hplace, hrun]
    exact s₁.size_le_descend c₁ ws
  · simp only [hplace, hrun, Nat.le_refl]

/-- A descent fails because of the store or with a corrupt path. -/
theorem descend_error (h : s.descend c ws = (.error e, s')) :
    e.isOfStore = true ∨ ∃ id path, e = .corruptPath id path := by
  induction ws generalizing s c with
  | nil => cases h
  | cons w ws ih =>
    obtain ⟨c₁, s₁, -, hrun⟩ | ⟨e₁, s₁, hplace, hrun⟩ := s.descend_cons c w ws
    · exact ih (hrun.symm.trans h)
    · cases hrun.symm.trans h
      exact place_error hplace

theorem find_of_descend (h : s.descend c (ws ++ [w]) = (.ok c', s')) :
    s'.find w = some c'.record := by
  induction ws generalizing s c with
  | nil =>
    rw [List.nil_append, descend_singleton] at h
    exact find_of_place h
  | cons v ws ih =>
    rw [List.cons_append] at h
    obtain ⟨c₁, s₁, -, hrun⟩ | ⟨e, s₁, -, hrun⟩ := s.descend_cons c v (ws ++ [w])
    · exact ih (hrun.symm.trans h)
    · cases hrun.symm.trans h

end Place

namespace Rooted

variable {allowed : Owner → Option Owner → Prop} {s s' t : ContextStore} {c c' : Context}
  {w : Owner} {ws : List Owner} {r : Record}

theorem childOf_eq (h : Rooted allowed s) {id : ContextId} (hg : s.get id = some r) (c : Context) :
    ∃ c', Context.ofRecord r = .ok c' ∧
      c.childOf r = if r.parent = some c.id then .ok c' else .error (.corruptPath r.id r.path) := by
  obtain ⟨c', hc', -⟩ := h.exists_context hg
  have hrecord := Context.record_of_ofRecord hc'
  refine ⟨c', hc', ?_⟩
  rw [Context.childOf, hc', ← hrecord]
  rfl

theorem owners_of_find (h : Rooted allowed s) (hw : s.find w = none) : s.owners.get? w = none :=
  h.indexes.linked.find_eq_none_iff.1 hw

theorem place_of_fresh (h : Rooted allowed s) (hc : s.get c.id = some c.record)
    (hallowed : allowed w c.record.owner?) (hw : s.find w = none)
    (room : (s.place c w).2.size < capacity) :
    (∃ c' s', s.place c w = (.ok c', s') ∧ s.create (.below c.record w) = .ok (c'.record, s') ∧
      Rooted allowed s') ∨
    Text.allBlank w.level = true ∧ ∃ e, e.isOfStore = true ∧ s.place c w = (.error e, s) := by
  by_cases hlevel : Text.allBlank w.level = true
  · refine .inr ⟨hlevel, .storage (.invalidInput "context level cannot be empty"), rfl, ?_⟩
    exact place_of_refusal (create_of_blank hlevel) nofun
  · left
    obtain ⟨s', hcreate⟩ := create_of_fresh (d := .below c.record w) hlevel hc (h.owners_of_find hw)
    have hplace := place_of_create hcreate
    rw [hplace] at room
    have hs' : Rooted allowed s' := h.create hcreate room hc hallowed
    have hget := (get_created hcreate).1
    obtain ⟨c', hc', hchild⟩ := hs'.childOf_eq hget c
    have hparent : ((Draft.below c.record w).record s.nextId).parent = some c.id := rfl
    rw [if_pos hparent] at hchild
    rw [hchild] at hplace
    rw [← Context.record_of_ofRecord hc'] at hcreate
    exact ⟨c', s', hplace, hcreate, hs'⟩

theorem place_of_stored (h : Rooted allowed s) (hc : s.get c.id = some c.record)
    (hlevel : ¬Text.allBlank w.level = true) (hw : s.find w = some r)
    (hparent : r.parent = some c.id) :
    ∃ c', Context.ofRecord r = .ok c' ∧ s.place c w = (.ok c', s) := by
  obtain ⟨hget, howner⟩ := h.get_of_find hw
  obtain ⟨c', hc', hchild⟩ := h.childOf_eq hget c
  rw [if_pos hparent] at hchild
  have hindex := h.indexed.2 ⟨r, hget, howner⟩
  have hcreate := create_of_stored (d := .below c.record w) hlevel hc hindex
  exact ⟨c', hc', by rw [place_of_conflict hcreate hw, hchild]⟩

theorem find_of_create (h : Rooted allowed s) {v : Owner}
    (hcreate : s.create (.below c.record w) = .ok (r, s')) (hv : v ≠ w) (hnone : s.find v = none) :
    s'.find v = none := by
  obtain ⟨-, -, -, howners, -⟩ := create_eq_ok hcreate
  have hindex : s'.owners.get? v = none := by
    rw [howners]
    exact (SortedMap.get?_insert_of_ne _ _ hv).trans (h.owners_of_find hnone)
  rw [find, hindex]

/-- New owners get their contexts one below the other, up to one with a blank level. -/
theorem descend_of_fresh (h : Rooted allowed s) (hc : s.get c.id = some c.record)
    (hallowed : ∀ w u, allowed w u) (hws : ∀ w ∈ ws, s.find w = none) (hnodup : ws.Nodup)
    (room : (s.descend c ws).2.size < capacity) :
    (∃ c', (s.descend c ws).1 = .ok c') ∨
    (∃ w ∈ ws, Text.allBlank w.level = true) ∧
      ∃ e, e.isOfStore = true ∧ (s.descend c ws).1 = .error e := by
  induction ws generalizing s c with
  | nil => exact .inl ⟨c, rfl⟩
  | cons w ws ih =>
    rw [List.forall_mem_cons] at hws
    rw [List.nodup_cons] at hnodup
    have hroom := Nat.lt_of_le_of_lt (s.size_place_le_descend c w ws) room
    obtain ⟨c', s', hplace, hcreate, hs'⟩ | ⟨hlevel, e, hstore, hplace⟩ :=
      h.place_of_fresh hc (hallowed _ _) hws.1 hroom
    · rw [descend_cons_ok hplace] at room ⊢
      have hfresh : ∀ v ∈ ws, s'.find v = none := by
        intro v hv
        refine h.find_of_create hcreate ?_ (hws.2 v hv)
        rintro rfl
        exact hnodup.1 hv
      rcases ih hs' (get_created hcreate).1 hfresh hnodup.2 room with hok | ⟨⟨v, hv, hblank⟩, herror⟩
      · exact .inl hok
      · exact .inr ⟨⟨v, List.mem_cons_of_mem _ hv, hblank⟩, herror⟩
    · rw [descend_cons_error hplace]
      exact .inr ⟨⟨w, List.mem_cons_self .., hlevel⟩, e, hstore, rfl⟩

theorem of_place (h : Rooted allowed s) (hc : s.get c.id = some c.record)
    (hallowed : allowed w c.record.owner?) (hplace : s.place c w = (.ok c', s'))
    (room : s'.size < capacity) :
    Rooted allowed s' ∧ s.Extends s' ∧ s'.get c'.id = some c'.record := by
  obtain ⟨r, s₁, hcreate, he⟩ | ⟨r, hfind, he⟩ | ⟨e, -, he⟩ := s.place_cases c w
  · obtain ⟨hchild, rfl⟩ := Prod.mk.inj (he.symm.trans hplace)
    have hrecord := Context.record_of_childOf hchild
    subst hrecord
    exact ⟨h.create hcreate room hc hallowed, h.extends_of_create hcreate room,
      (get_created hcreate).1⟩
  · obtain ⟨hchild, rfl⟩ := Prod.mk.inj (he.symm.trans hplace)
    have hrecord := Context.record_of_childOf hchild
    subst hrecord
    exact ⟨h, .refl _, (h.get_of_find hfind).1⟩
  · cases he.symm.trans hplace

/-- In a tree, a path is corrupt only where the context of the owner is elsewhere. -/
theorem of_place_error (h : Rooted allowed s) (hc : s.get c.id = some c.record)
    (hallowed : allowed w c.record.owner?) {e : Error} (hplace : s.place c w = (.error e, s'))
    (room : s'.size < capacity) :
    s' = s ∧ (e.isOfStore = true ∨ ∃ r, s.find w = some r ∧ e = .corruptPath r.id r.path) := by
  obtain ⟨r, s₁, hcreate, he⟩ | ⟨r, hfind, he⟩ | ⟨e', hstore, he⟩ := s.place_cases c w
  · -- a record that was just made is a child of the context it was made below
    obtain ⟨hchild, rfl⟩ := Prod.mk.inj (he.symm.trans hplace)
    have hget := (get_created hcreate).1
    obtain ⟨c', -, hc'⟩ := (h.create hcreate room hc hallowed).childOf_eq hget c
    have hparent : r.parent = some c.id := by
      obtain ⟨-, hr, -⟩ := create_eq_ok hcreate
      rw [hr]
      rfl
    rw [if_pos hparent, hchild] at hc'
    cases hc'
  · obtain ⟨hchild, rfl⟩ := Prod.mk.inj (he.symm.trans hplace)
    exact ⟨rfl, .inr ⟨r, hfind, Context.childOf_error hchild⟩⟩
  · cases he.symm.trans hplace
    exact ⟨rfl, .inl hstore⟩

/-- A corrupt path on the way down is that of a context which was made on the way. -/
theorem descend_corrupt (ht : Rooted allowed t) (h : Rooted allowed s) (hext : t.Extends s)
    (hc : s.get c.id = some c.record) (hallowed : ∀ w u, allowed w u)
    (hws : ∀ w ∈ ws, t.find w = none) {id : ContextId} {path : String}
    (he : s.descend c ws = (.error (.corruptPath id path), s')) (room : s'.size < capacity) :
    t.get id = none ∧ (s'.get id).isSome = true := by
  induction ws generalizing s c with
  | nil => cases he
  | cons w ws ih =>
    rw [List.forall_mem_cons] at hws
    obtain ⟨c₁, s₁, hplace, hrun⟩ | ⟨e, s₁, hplace, hrun⟩ := s.descend_cons c w ws
    · have he₁ := hrun.symm.trans he
      have hroom : s₁.size < capacity := by
        have hle := s₁.size_le_descend c₁ ws
        rw [he₁] at hle
        exact Nat.lt_of_le_of_lt hle room
      obtain ⟨hs₁, hext₁, hc₁⟩ := h.of_place hc (hallowed _ _) hplace hroom
      exact ih hs₁ (hext.trans hext₁) hc₁ hws.2 he₁
    · cases hrun.symm.trans he
      obtain ⟨rfl, hstore | ⟨r, hfind, hpath⟩⟩ := h.of_place_error hc (hallowed _ _) hplace room
      · cases hstore
      · cases hpath
        obtain ⟨hget, howner⟩ := h.get_of_find hfind
        refine ⟨?_, by rw [hget]; rfl⟩
        cases hold : t.get r.id with
        | none => rfl
        | some r' =>
          -- a record of the owner that was there before would have been found
          have hsame : r' = r := Option.some.inj ((hext _ _ hold).symm.trans hget)
          rw [hsame] at hold
          rw [ht.find_of_get hold howner] at hws
          cases hws.1

end Rooted

theorem find_of_glimpse {s : ContextStore} {missed : Owner → Bool} {w : Owner} {r : Record}
    (h : s.glimpse missed w = some r) : s.find w = some r := by
  unfold glimpse at h
  split at h
  · cases h
  · exact h

theorem glimpse_of_find {s : ContextStore} {missed : Owner → Bool} {w : Owner}
    (h : s.find w = none) : s.glimpse missed w = none := by
  rw [glimpse, h]
  exact ite_self none

section Climb

variable {Obj : Type} [DomainObject Obj] {s : ContextStore} {top : Except Error Context}
  {missed : Owner → Bool} {parents : ParentRegistry} {limit left : Nat} {o p : Obj} {c : Context}
  {ws : List Owner} {e : Error}

theorem climb_of_seen {r : Record} (h : s.glimpse missed (DomainObject.owner o) = some r) :
    s.climb top missed parents limit left o = (Context.ofRecord r).map (·, []) := by
  unfold climb
  rw [h]

theorem climb_of_top (h : s.glimpse missed (DomainObject.owner o) = none)
    (hparent : parents.parentOf o = none) :
    s.climb top missed parents limit left o = top.map (·, [DomainObject.owner o]) := by
  unfold climb
  rw [h, hparent]

theorem climb_zero (h : s.glimpse missed (DomainObject.owner o) = none)
    (hparent : parents.parentOf o = some p) :
    s.climb top missed parents limit 0 o = .error (.beyond limit) := by
  unfold climb
  rw [h, hparent]

theorem climb_succ (h : s.glimpse missed (DomainObject.owner o) = none)
    (hparent : parents.parentOf o = some p) :
    s.climb top missed parents limit (left + 1) o =
      (s.climb top missed parents limit left p).map
        fun x => (x.1, x.2 ++ [DomainObject.owner o]) := by
  conv => lhs; unfold climb
  rw [h, hparent]

/-- A climb goes on from object to object until it sees something or the way ends. -/
theorem climb_induct (s : ContextStore) (missed : Owner → Bool) (parents : ParentRegistry)
    {motive : Nat → Obj → Prop}
    (seen : ∀ left o r, s.glimpse missed (DomainObject.owner o) = some r → motive left o)
    (top : ∀ left o, s.glimpse missed (DomainObject.owner o) = none →
      parents.parentOf o = none → motive left o)
    (stop : ∀ o p, s.glimpse missed (DomainObject.owner o) = none →
      parents.parentOf o = some p → motive 0 o)
    (next : ∀ left o p, s.glimpse missed (DomainObject.owner o) = none →
      parents.parentOf o = some p → motive left p → motive (left + 1) o)
    (left : Nat) (o : Obj) : motive left o := by
  induction left generalizing o with
  | zero =>
    cases hseen : s.glimpse missed (DomainObject.owner o) with
    | some r => exact seen 0 o r hseen
    | none =>
      cases hparent : parents.parentOf o with
      | none => exact top 0 o hseen hparent
      | some p => exact stop o p hseen hparent
  | succ left ih =>
    cases hseen : s.glimpse missed (DomainObject.owner o) with
    | some r => exact seen (left + 1) o r hseen
    | none =>
      cases hparent : parents.parentOf o with
      | none => exact top (left + 1) o hseen hparent
      | some p => exact next left o p hseen hparent (ih p)

/-- A climb does not depend on what is missed of what is not there. -/
theorem climb_congr {missed' : Owner → Bool} (h : ∀ w, s.glimpse missed w = s.glimpse missed' w) :
    s.climb top missed parents limit left o = s.climb top missed' parents limit left o := by
  induction left, o using @climb_induct Obj _ s missed parents with
  | seen left o r hseen => rw [climb_of_seen hseen, climb_of_seen ((h _).symm.trans hseen)]
  | top left o hnone hparent =>
    rw [climb_of_top hnone hparent, climb_of_top ((h _).symm.trans hnone) hparent]
  | stop o p hnone hparent =>
    rw [climb_zero hnone hparent, climb_zero ((h _).symm.trans hnone) hparent]
  | next left o p hnone hparent ih =>
    rw [climb_succ hnone hparent, climb_succ ((h _).symm.trans hnone) hparent, ih]

/-- Without the root's failure and without corrupt records only the depth ends a climb. -/
theorem climb_error (h : s.climb top missed parents limit left o = .error e) : top = .error e ∨
    e = .beyond limit ∨ ∃ w r, s.find w = some r ∧ Context.ofRecord r = .error e := by
  induction left, o using @climb_induct Obj _ s missed parents with
  | seen left o r hseen =>
    rw [climb_of_seen hseen] at h
    exact .inr (.inr ⟨_, r, find_of_glimpse hseen, Except.map_eq_error.1 h⟩)
  | top left o hnone hparent =>
    rw [climb_of_top hnone hparent] at h
    exact .inl (Except.map_eq_error.1 h)
  | stop o p hnone hparent =>
    rw [climb_zero hnone hparent] at h
    cases h
    exact .inr (.inl rfl)
  | next left o p hnone hparent ih =>
    rw [climb_succ hnone hparent] at h
    exact ih (Except.map_eq_error.1 h)

/-- A climb ends at the root or at a context that is seen, and the owners that it passes are on the
chain of the object and not seen. -/
theorem climb_ok (h : s.climb top missed parents limit left o = .ok (c, ws)) :
    (top = .ok c ∨ ∃ w, s.find w = some c.record) ∧ (∀ w ∈ ws, s.glimpse missed w = none) ∧
      ws.reverse <+: (parents.chain (left + 1) o).map DomainObject.owner := by
  induction left, o using @climb_induct Obj _ s missed parents generalizing ws with
  | seen left o r hseen =>
    rw [climb_of_seen hseen] at h
    obtain ⟨c', hc', he⟩ := Except.map_eq_ok.1 h
    cases he
    refine ⟨.inr ⟨DomainObject.owner o, ?_⟩, nofun, List.nil_prefix⟩
    rw [Context.record_of_ofRecord hc']
    exact find_of_glimpse hseen
  | top left o hnone hparent =>
    rw [climb_of_top hnone hparent] at h
    obtain ⟨c', hc', he⟩ := Except.map_eq_ok.1 h
    cases he
    refine ⟨.inl hc', ?_, ?_⟩
    · intro w hw
      rw [List.mem_singleton.1 hw, hnone]
    · rw [ParentRegistry.chain, hparent]
      exact List.prefix_refl _
  | stop o p hnone hparent =>
    rw [climb_zero hnone hparent] at h
    cases h
  | next left o p hnone hparent ih =>
    rw [climb_succ hnone hparent] at h
    obtain ⟨⟨c', ws'⟩, hc', he⟩ := Except.map_eq_ok.1 h
    cases he
    obtain ⟨hbase, hunseen, hway⟩ := ih hc'
    refine ⟨hbase, ?_, ?_⟩
    · intro w hw
      rcases List.mem_append.1 hw with hw | hw
      · exact hunseen w hw
      · rw [List.mem_singleton.1 hw, hnone]
    · rw [ParentRegistry.chain, hparent, List.reverse_append]
      exact List.cons_prefix_cons.2 ⟨rfl, hway⟩

theorem climb_nil (h : s.climb top missed parents limit left o = .ok (c, [])) :
    s.find (DomainObject.owner o) = some c.record := by
  induction left, o using @climb_induct Obj _ s missed parents with
  | seen left o r hseen =>
    rw [climb_of_seen hseen] at h
    obtain ⟨c', hc', he⟩ := Except.map_eq_ok.1 h
    cases he
    rw [Context.record_of_ofRecord hc']
    exact find_of_glimpse hseen
  | top left o hnone hparent =>
    rw [climb_of_top hnone hparent] at h
    obtain ⟨c', hc', he⟩ := Except.map_eq_ok.1 h
    cases he
  | stop o p hnone hparent =>
    rw [climb_zero hnone hparent] at h
    cases h
  | next left o p hnone hparent _ =>
    rw [climb_succ hnone hparent] at h
    obtain ⟨x, hx, he⟩ := Except.map_eq_ok.1 h
    simp at he

namespace Rooted

variable {allowed : Owner → Option Owner → Prop}

theorem get_of_climb (h : Rooted allowed s)
    (hclimb : s.climb (.ok .root) missed parents limit left o = .ok (c, ws)) :
    s.get c.id = some c.record := by
  rcases (climb_ok hclimb).1 with htop | ⟨w, hfind⟩
  · cases htop
    exact h.root
  · exact (h.get_of_find hfind).1

theorem climb_error (h : Rooted allowed s)
    (hclimb : s.climb (.ok .root) missed parents limit left o = .error e) :
    e = .beyond limit := by
  rcases ContextStore.climb_error hclimb with htop | hdepth | ⟨w, r, hfind, hr⟩
  · cases htop
  · exact hdepth
  · obtain ⟨c, hc, -⟩ := h.exists_context (h.get_of_find hfind).1
    rw [hr] at hc
    cases hc

end Rooted

end Climb

end ContextStore

end Clearance
