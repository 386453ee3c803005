import Clearance.Proofs.Context.Containment
import Clearance.Proofs.Context.Descent

/-! What a descent makes. Below a stored context the new owners get records one below the other,
numbered in a row from the next id on, and nothing else is stored. A gap says which owners of the
chain of an object are new and below which context they go. -/
namespace Clearance

/-- So many ids in a row, from this one on. -/
def Id.row (n : ContextId) : Nat → List ContextId
  | 0 => []
  | k + 1 => n :: row (n + 1) k

/-- The records of these owners, one below the other. The first one is below `p` and has the id `n`,
and the others have the ids after it. -/
def Record.rowBelow (p : Record) (n : ContextId) : List Owner → List Record
  | [] => []
  | w :: ws => (Draft.below p w).record n :: ((Draft.below p w).record n).rowBelow (n + 1) ws

theorem Record.map_id_rowBelow (p : Record) (n : ContextId) (ws : List Owner) :
    (p.rowBelow n ws).map Record.id = Id.row n ws.length := by
  induction ws generalizing p n with
  | nil => rfl
  | cons w ws ih =>
    unfold rowBelow
    rw [List.map_cons, ih]
    rfl

theorem Record.map_owner?_rowBelow (p : Record) (n : ContextId) (ws : List Owner) :
    (p.rowBelow n ws).map Record.owner? = ws.map some := by
  induction ws generalizing p n with
  | nil => rfl
  | cons w ws ih =>
    unfold rowBelow
    rw [List.map_cons, ih]
    rfl

theorem Record.length_rowBelow (p : Record) (n : ContextId) (ws : List Owner) :
    (p.rowBelow n ws).length = ws.length := by
  rw [← List.length_map Record.owner?, map_owner?_rowBelow, List.length_map]

namespace ContextStore

/-- The store `t` has the records of `s` and these ones besides. -/
structure Gains (s : ContextStore) (rs : List Record) (t : ContextStore) : Prop where
  get : ∀ id r, t.get id = some r ↔ s.get id = some r ∨ r ∈ rs ∧ r.id = id
  find : ∀ w r, t.find w = some r ↔ s.find w = some r ∨ r ∈ rs ∧ r.owner? = some w
  next : t.nextId = s.nextId + Int64.ofNat rs.length
  size : t.size = s.size + rs.length

theorem Gains.refl (s : ContextStore) : s.Gains [] s where
  get id r := by simp
  find w r := by simp
  next := (Int64.add_zero s.nextId).symm
  size := rfl

theorem Gains.trans {s t u : ContextStore} {rs rs' : List Record} (h : s.Gains rs t)
    (h' : t.Gains rs' u) : s.Gains (rs ++ rs') u where
  get id r := by
    rw [h'.get, h.get, List.mem_append, or_and_right, or_assoc]
  find w r := by
    rw [h'.find, h.find, List.mem_append, or_and_right, or_assoc]
  next := by
    rw [h'.next, h.next, List.length_append, Int64.ofNat_add, Int64.add_assoc]
  size := by
    rw [h'.size, h.size, List.length_append, Nat.add_assoc]

namespace Rooted

variable {allowed : Owner → Option Owner → Prop} {s s' : ContextStore} {c : Context}
  {p r : Record} {w : Owner} {ws : List Owner}

theorem find_iff (h : Rooted allowed s) :
    s.find w = some r ↔ s.get r.id = some r ∧ r.owner? = some w := h.indexes.find_iff

theorem size_of_room (h : Rooted allowed s) (hcreate : s.create (.below p w) = .ok (r, s'))
    (room : s.size < capacity) : s'.size = s.size + 1 := by
  apply (puts_of_create hcreate).size
  rw [id_of_create hcreate]
  exact h.get_nextId room

theorem size_place_le (h : Rooted allowed s) (c : Context) (w : Owner) (room : s.size < capacity) :
    (s.place c w).2.size ≤ s.size + 1 := by
  obtain ⟨r, s₁, hcreate, hplace⟩ | ⟨r, -, hplace⟩ | ⟨e, -, hplace⟩ := s.place_cases c w
  · rw [hplace]
    exact Nat.le_of_eq (h.size_of_room hcreate room)
  · rw [hplace]
    exact Nat.le_succ _
  · rw [hplace]
    exact Nat.le_succ _

theorem gains_of_create (h : Rooted allowed s) (h' : Rooted allowed s')
    (hcreate : s.create (.below p w) = .ok (r, s')) (room : s.size < capacity) :
    s.Gains [r] s' := by
  obtain ⟨-, hr, -, -, hnext⟩ := create_eq_ok hcreate
  have hid : r.id = s.nextId := hr ▸ rfl
  have hget : ∀ id x, s'.get id = some x ↔ s.get id = some x ∨ x ∈ [r] ∧ x.id = id := by
    intro id x
    rw [get_of_create hcreate, List.mem_singleton]
    by_cases hnew : id = s.nextId
    · subst hnew
      rw [if_pos rfl, h.get_nextId room]
      constructor
      · rintro ⟨⟩
        exact .inr ⟨rfl, hid⟩
      · rintro (⟨⟨⟩⟩ | ⟨rfl, -⟩)
        rfl
    · rw [if_neg hnew]
      constructor
      · exact .inl
      · rintro (hold | ⟨rfl, hx⟩)
        · exact hold
        · exact absurd (hx.symm.trans hid) hnew
  refine ⟨hget, ?_, hnext, h.size_of_room hcreate room⟩
  intro v x
  rw [h'.find_iff, h.find_iff, hget, and_iff_left rfl, or_and_right]

theorem ancestors_of_create (h : Rooted allowed s) (hc : s.Holds c) {c' : Context}
    (hcreate : s.create (.below c.record w) = .ok (c'.record, s')) :
    c'.ancestors = c.ancestors ++ [s.nextId] := by
  obtain ⟨-, hr, -, -, -⟩ := create_eq_ok hcreate
  have hlineage := c.lineage.child (h.path_eq hc) w s.nextId
  have hpath := c'.lineage.path
  rw [hr] at hpath
  exact Option.some.inj (hpath.symm.trans hlineage.path)

/-- New owners with levels get their contexts one below the other, numbered in a row. -/
theorem descend_gains (h : Rooted allowed s) (hallowed : ∀ w u, allowed w u) (hc : s.Holds c)
    (hws : ∀ w ∈ ws, s.find w = none) (hlevels : ∀ w ∈ ws, ¬Text.allBlank w.level = true)
    (hnodup : ws.Nodup) (room : s.size + ws.length < capacity) :
    ∃ c', (s.descend c ws).1 = .ok c' ∧
      c'.ancestors = c.ancestors ++ Id.row s.nextId ws.length ∧
      s.Gains (c.record.rowBelow s.nextId ws) (s.descend c ws).2 := by
  induction ws generalizing s c with
  | nil => exact ⟨c, rfl, (List.append_nil _).symm, .refl s⟩
  | cons w ws ih =>
    rw [List.forall_mem_cons] at hws hlevels
    rw [List.nodup_cons] at hnodup
    rw [List.length_cons] at room
    have hsize := h.size_place_le c w (by omega)
    obtain ⟨c₁, s₁, hplace, hcreate, h₁⟩ | ⟨hblank, -⟩ :=
      h.place_of_fresh hc (hallowed _ _) hws.1 (by omega)
    · obtain ⟨-, hr, -, -, hnext⟩ := create_eq_ok hcreate
      have hgains := h.gains_of_create h₁ hcreate (by omega)
      have hfresh : ∀ v ∈ ws, s₁.find v = none := by
        intro v hv
        apply h.find_of_create hcreate _ (hws.2 v hv)
        rintro rfl
        exact hnodup.1 hv
      have hsize₁ : s₁.size = s.size + 1 := hgains.size
      obtain ⟨c', hok, hancestors, hbelow⟩ :=
        ih h₁ (get_created hcreate).1 hfresh hlevels.2 hnodup.2 (by omega)
      rw [descend_cons_ok hplace]
      refine ⟨c', hok, ?_, ?_⟩
      · rw [hancestors, h.ancestors_of_create hc hcreate, hnext, List.append_assoc]
        rfl
      · have hall := hgains.trans hbelow
        rw [hr, hnext] at hall
        exact hall
    · exact absurd hblank hlevels.1

end Rooted

section Gap

variable {Obj : Type} [DomainObject Obj] {s : ContextStore} {parents : ParentRegistry}

/-- The way up from the object ends after so many steps at its first member that has a context, or
at the root where the chain ends; the members before it have none. -/
inductive Gap (s : ContextStore) (parents : ParentRegistry) :
    Nat → Obj → List Obj → Context → Prop
  | stored {o : Obj} {c : Context} : s.find (DomainObject.owner o) = some c.record →
      Gap s parents 0 o [] c
  | top {o : Obj} : s.find (DomainObject.owner o) = none → parents.parentOf o = none →
      Gap s parents 0 o [o] .root
  | under {steps : Nat} {o p : Obj} {missing : List Obj} {c : Context} :
      s.find (DomainObject.owner o) = none → parents.parentOf o = some p →
      Gap s parents steps p missing c → Gap s parents (steps + 1) o (o :: missing) c

variable {steps left limit : Nat} {o : Obj} {missing : List Obj} {c : Context}

theorem Gap.find_missing (h : s.Gap parents steps o missing c) :
    ∀ p ∈ missing, s.find (DomainObject.owner p) = none := by
  induction h with
  | stored _ => exact nofun
  | top hnone _ =>
    intro p hp
    rw [List.mem_singleton.1 hp, hnone]
  | under hnone _ _ ih => exact List.forall_mem_cons.2 ⟨hnone, ih⟩

theorem Gap.holds {allowed : Owner → Option Owner → Prop} (h : s.Gap parents steps o missing c)
    (hs : Rooted allowed s) : s.Holds c := by
  induction h with
  | stored hfind => exact (hs.get_of_find hfind).1
  | top _ _ => exact hs.root
  | under _ _ _ ih => exact ih

theorem climb_of_gap (h : s.Gap parents steps o missing c) (hle : steps ≤ left) :
    s.climb (.ok .root) (fun _ => false) parents limit left o =
      .ok (c, (missing.map DomainObject.owner).reverse) := by
  induction h generalizing left with
  | @stored o c hfind =>
    have hseen : s.glimpse (fun _ => false) (DomainObject.owner o) = some c.record := hfind
    rw [climb_of_seen hseen, Context.ofRecord_record]
    rfl
  | top hnone hparent =>
    rw [climb_of_top (glimpse_of_find hnone) hparent]
    rfl
  | under hnone hparent _ ih =>
    obtain ⟨left, rfl⟩ := Nat.exists_eq_add_of_le' hle
    rw [← Nat.add_assoc, climb_succ (glimpse_of_find hnone) hparent, ih (by omega)]
    rw [List.map_cons, List.reverse_cons]
    rfl

/-- The members that a gap misses get their contexts below its upper end. -/
theorem Rooted.descend_of_gap {allowed : Owner → Option Owner → Prop} (h : Rooted allowed s)
    (hallowed : ∀ w u, allowed w u) (hgap : s.Gap parents steps o missing c)
    (hlevels : ∀ p ∈ missing, ¬Text.allBlank (DomainObject.owner p).level = true)
    (hdistinct : (missing.map DomainObject.owner).Nodup)
    (room : s.size + missing.length < capacity) :
    let ws := (missing.map DomainObject.owner).reverse
    ∃ c', (s.descend c ws).1 = .ok c' ∧
      c'.ancestors = c.ancestors ++ Id.row s.nextId missing.length ∧
      s.Gains (c.record.rowBelow s.nextId ws) (s.descend c ws).2 := by
  intro ws
  have hlength : ws.length = missing.length := by
    rw [List.length_reverse, List.length_map]
  have hmember : ∀ w ∈ ws, ∃ p ∈ missing, DomainObject.owner p = w := by
    intro w hw
    exact List.mem_map.1 (List.mem_reverse.1 hw)
  have hnew : ∀ w ∈ ws, s.find w = none := by
    intro w hw
    obtain ⟨p, hp, rfl⟩ := hmember w hw
    exact hgap.find_missing p hp
  have hlevels' : ∀ w ∈ ws, ¬Text.allBlank w.level = true := by
    intro w hw
    obtain ⟨p, hp, rfl⟩ := hmember w hw
    exact hlevels p hp
  have hnodup : ws.Nodup := (List.reverse_perm _).symm.nodup hdistinct
  rw [← hlength] at room ⊢
  exact h.descend_gains hallowed (hgap.holds h) hnew hlevels' hnodup room

end Gap

end ContextStore

end Clearance
