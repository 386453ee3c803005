import Clearance.Proofs.Context.Indexed
import Mathlib.Algebra.Group.Nat.Defs

/-! Stores whose records form a tree below the root. Contexts are made below stored ones only, and
each takes the next number, so that a tree stays a tree for as long as there are numbers left. -/
namespace Clearance

def Draft.below (p : Record) (w : Owner) : Draft := ⟨p.id, w, p.depth + 1, p.path⟩

namespace ContextStore

/-- How many contexts can be numbered from the root's number up. -/
def capacity : Nat := 2 ^ 63

/-- The records form a tree: they are numbered in the order in which they were made, each of them
is drafted below an earlier one that is `allowed` above it, and the index knows every owner. -/
structure Rooted (allowed : Owner → Option Owner → Prop) (s : ContextStore) : Prop where
  root : s.get rootId = some .root
  next : s.nextId = Int64.ofNat (s.size + 1)
  numbered : ∀ {id r}, s.get id = some r → r.id = id ∧ 1 ≤ id.toInt ∧ id.toInt ≤ s.size
  placed : ∀ {id r}, s.get id = some r → id ≠ rootId → ∃ p w, s.get p.id = some p ∧ p.id < id ∧
    allowed w p.owner? ∧ r = (Draft.below p w).record id
  indexed : ∀ {w id}, s.owners.get? w = some id ↔ ∃ r, s.get id = some r ∧ r.owner? = some w

theorem rooted_new (allowed : Owner → Option Owner → Prop) : Rooted allowed new := by
  have hget : ∀ {id r}, new.get id = some r → id = rootId ∧ r = .root := by
    intro id r h
    by_cases hid : id = rootId
    · subst hid
      exact ⟨rfl, (Option.some.inj (h.symm.trans (SortedMap.get?_insert_self ..))).symm ▸ rfl⟩
    · rw [get, new, SortedMap.get?_insert_of_ne _ _ hid] at h
      cases h
  refine ⟨SortedMap.get?_insert_self .., rfl, ?_, ?_, ?_⟩
  · intro id r h
    obtain ⟨rfl, rfl⟩ := hget h
    decide
  · intro id r h hid
    exact absurd (hget h).1 hid
  · intro w id
    constructor
    · intro h
      cases h
    · rintro ⟨r, h, hw⟩
      rw [(hget h).2] at hw
      cases hw

namespace Rooted

variable {allowed : Owner → Option Owner → Prop} {s s' : ContextStore} {p r : Record} {w : Owner}

theorem toInt_nextId (h : Rooted allowed s) (room : s.size + 1 < capacity) :
    s.nextId.toInt = s.size + 1 := by
  rw [h.next, Int64.toInt_ofNat_of_lt room]
  rfl

theorem get_nextId (h : Rooted allowed s) (room : s.size < capacity) : s.get s.nextId = none := by
  cases hg : s.get s.nextId with
  | none => rfl
  | some r =>
    obtain ⟨-, hlo, hhi⟩ := h.numbered hg
    by_cases hs : s.size + 1 < capacity
    · rw [h.toInt_nextId hs] at hhi
      omega
    · have : s.size + 1 = 2 ^ 63 := by
        unfold capacity at room hs
        omega
      rw [h.next, this] at hlo
      exact absurd hlo (by decide)

theorem indexes (h : Rooted allowed s) : s.Indexed := ⟨fun hg => (h.numbered hg).1, h.indexed⟩

theorem get_of_find (h : Rooted allowed s) (hf : s.find w = some r) :
    s.get r.id = some r ∧ r.owner? = some w := h.indexes.find_iff.1 hf

theorem find_of_get (h : Rooted allowed s) {id : ContextId} (hg : s.get id = some r)
    (hw : r.owner? = some w) : s.find w = some r := by
  rw [← (h.numbered hg).1] at hg
  exact h.indexes.find_iff.2 ⟨hg, hw⟩

section Create

variable (h : Rooted allowed s) (hc : s.create (.below p w) = .ok (r, s'))
  (room : s'.size < capacity)

include h hc room

theorem get_created_id : s.get r.id = none := by
  rw [id_of_create hc]
  exact h.get_nextId (Nat.lt_of_le_of_lt (size_le_of_create hc) room)

theorem size_of_create : s'.size = s.size + 1 :=
  (puts_of_create hc).size (h.get_created_id hc room)

theorem extends_of_create : s.Extends s' := (puts_of_create hc).keeps (h.get_created_id hc room)

/-- A tree in which a context is made below a stored one is a tree. -/
theorem create (hp : s.get p.id = some p) (hw : allowed w p.owner?) : Rooted allowed s' := by
  have hget := get_of_create hc
  have hext : s.Extends s' := h.extends_of_create hc room
  have hsize := h.size_of_create hc room
  have hnext := h.toInt_nextId (hsize ▸ room)
  obtain ⟨hnew, hr, -, -, hid⟩ := create_eq_ok hc
  have howner : r.owner? = some w := (get_created hc).2
  refine ⟨hext _ _ h.root, ?_, ?_, ?_, ?_⟩
  · rw [hid, h.next, hsize]
    exact (Int64.ofNat_add (s.size + 1) 1).symm
  · intro id r' hg
    rw [hget] at hg
    split at hg
    · next he =>
      cases hg
      subst he
      exact ⟨by rw [hr]; rfl, by omega, by omega⟩
    · obtain ⟨hi, hlo, hhi⟩ := h.numbered hg
      exact ⟨hi, hlo, by omega⟩
  · intro id r' hg hroot
    rw [hget] at hg
    split at hg
    · next he =>
      cases hg
      subst he
      have := (h.numbered hp).2.2
      exact ⟨p, w, hext _ _ hp, Int64.lt_iff_toInt_lt.2 (by omega), hw, hr⟩
    · obtain ⟨q, v, hq, hlt, hv, hr'⟩ := h.placed hg hroot
      exact ⟨q, v, hext _ _ hq, hlt, hv, hr'⟩
  · have hfree : ∀ v, r.owner? = some v → s.owners.get? v = none := by
      rw [howner]
      rintro v ⟨⟩
      exact hnew
    intro v id
    exact (h.indexes.put (puts_of_create hc) (h.get_created_id hc room) hfree).indexed

end Create

end Rooted

end ContextStore

end Clearance
