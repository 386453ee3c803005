import Clearance.Context.Store

/-! The index of the owners beside the records. A record is put into both, as it is or made from a
draft, and they go on to agree if its id and its owner are new. -/
namespace Clearance.ContextStore

def Extends (s t : ContextStore) : Prop := ∀ id r, s.get id = some r → t.get id = some r

theorem Extends.refl (s : ContextStore) : s.Extends s := fun _ _ h => h

theorem Extends.trans {s t u : ContextStore} (hst : s.Extends t) (htu : t.Extends u) :
    s.Extends u := fun _ _ h => htu _ _ (hst _ _ h)

theorem Extends.size_le {s t : ContextStore} (h : s.Extends t) : s.size ≤ t.size :=
  SortedMap.size_le_of_get? h

theorem create_eq_ok {s s' : ContextStore} {d : Draft} {r : Record}
    (h : s.create d = .ok (r, s')) :
    s.owners.get? d.owner = none ∧ r = d.record s.nextId ∧
      s'.records = s.records.insert s.nextId r ∧ s'.owners = s.owners.insert d.owner s.nextId ∧
      s'.nextId = s.nextId + 1 := by
  unfold create at h
  split at h
  · cases h
  split at h
  · cases h
  split at h
  · cases h
  next howner =>
    cases h
    exact ⟨by simpa [SortedMap.contains] using howner, rfl, rfl, rfl, rfl⟩

theorem size_le_of_create {s s' : ContextStore} {d : Draft} {r : Record}
    (h : s.create d = .ok (r, s')) : s.size ≤ s'.size := by
  obtain ⟨-, -, hrecords, -, -⟩ := create_eq_ok h
  rw [size, size, hrecords]
  exact SortedMap.size_le_size_insert ..

theorem get_of_create {s s' : ContextStore} {d : Draft} {r : Record}
    (h : s.create d = .ok (r, s')) (id : ContextId) :
    s'.get id = if id = s.nextId then some r else s.get id := by
  obtain ⟨-, -, hrecords, -, -⟩ := create_eq_ok h
  rw [get, hrecords]
  split
  · next hid => rw [hid, SortedMap.get?_insert_self]
  · next hid => exact SortedMap.get?_insert_of_ne _ _ hid

theorem get_created {s s' : ContextStore} {d : Draft} {r : Record}
    (h : s.create d = .ok (r, s')) : s'.get r.id = some r ∧ r.owner? = some d.owner := by
  obtain ⟨-, hr, -, -, -⟩ := create_eq_ok h
  have hid : r.id = s.nextId := hr ▸ rfl
  rw [get_of_create h, if_pos hid]
  exact ⟨rfl, hr ▸ rfl⟩

theorem id_of_create {s s' : ContextStore} {d : Draft} {r : Record}
    (h : s.create d = .ok (r, s')) : r.id = s.nextId := by
  obtain ⟨-, rfl, -, -, -⟩ := create_eq_ok h
  rfl

theorem find_created {s s' : ContextStore} {d : Draft} {r : Record}
    (h : s.create d = .ok (r, s')) : s'.find d.owner = some r := by
  obtain ⟨-, -, hrecords, howners, -⟩ := create_eq_ok h
  rw [find, howners, SortedMap.get?_insert_self, hrecords]
  exact SortedMap.get?_insert_self ..

/-- The store `t` is `s` with this record put in, under its id and for its owner if it has one. -/
structure Puts (s : ContextStore) (r : Record) (t : ContextStore) : Prop where
  records : t.records = s.records.insert r.id r
  owners : ∀ w, t.owners.get? w = if r.owner? = some w then some r.id else s.owners.get? w

/-- Each record is kept under its id, and the index leads from each owner to the record of that
owner. -/
structure Indexed (s : ContextStore) : Prop where
  keyed : ∀ {id r}, s.get id = some r → r.id = id
  indexed : ∀ {w id}, s.owners.get? w = some id ↔ ∃ r, s.get id = some r ∧ r.owner? = some w

/-- Each record is kept under its id, and the index leads from an owner to some record. -/
structure Linked (s : ContextStore) : Prop where
  keyed : ∀ {id r}, s.get id = some r → r.id = id
  leads : ∀ {w id}, s.owners.get? w = some id → s.get id ≠ none

variable {s t : ContextStore} {d : Draft} {r : Record} {w : Owner}

theorem puts_insert (s : ContextStore) (r : Record) : s.Puts r (s.insert r) where
  records := rfl
  owners w := by
    unfold insert
    cases howner : r.owner? with
    | none => rfl
    | some v =>
      simp only [Option.some.injEq]
      split
      · next h =>
        rw [h]
        exact SortedMap.get?_insert_self ..
      · next h => exact SortedMap.get?_insert_of_ne _ _ (Ne.symm h)

theorem puts_of_create (h : s.create d = .ok (r, t)) : s.Puts r t := by
  obtain ⟨-, rfl, hrecords, howners, -⟩ := create_eq_ok h
  refine ⟨hrecords, fun w => ?_⟩
  have howner : (d.record s.nextId).owner? = some d.owner := rfl
  simp only [howners, howner, Option.some.injEq]
  split
  · next hw =>
    rw [hw]
    exact SortedMap.get?_insert_self ..
  · next hw => exact SortedMap.get?_insert_of_ne _ _ (Ne.symm hw)

namespace Indexed

theorem find_iff (h : s.Indexed) : s.find w = some r ↔ s.get r.id = some r ∧ r.owner? = some w := by
  unfold find
  constructor
  · intro hfind
    split at hfind
    · cases hfind
    next id hid =>
      obtain ⟨x, hx, howner⟩ := h.indexed.1 hid
      cases (hx.symm.trans hfind : some x = some r)
      rw [h.keyed hx]
      exact ⟨hx, howner⟩
  · rintro ⟨hget, howner⟩
    rw [h.indexed.2 ⟨r, hget, howner⟩]
    exact hget

theorem linked (h : s.Indexed) : s.Linked where
  keyed := h.keyed
  leads hid hnone := by
    obtain ⟨x, hx, -⟩ := h.indexed.1 hid
    cases hnone.symm.trans hx

end Indexed

theorem Linked.find_eq_none_iff (h : s.Linked) : s.find w = none ↔ s.owners.get? w = none := by
  unfold find
  split
  · next hid => exact iff_of_true rfl hid
  · next id hid => exact iff_of_false (h.leads hid) (by rw [hid]; nofun)

namespace Puts

variable (hp : s.Puts r t)

include hp

theorem get (id : ContextId) : t.get id = if id = r.id then some r else s.get id := by
  rw [ContextStore.get, hp.records]
  split
  · next h =>
    rw [h]
    exact SortedMap.get?_insert_self ..
  · next h => exact SortedMap.get?_insert_of_ne _ _ h

variable (hid : s.get r.id = none)

include hid

theorem size : t.size = s.size + 1 := by
  rw [ContextStore.size, hp.records]
  exact SortedMap.size_insert_of_none _ _ hid

theorem keeps : s.Extends t := by
  intro id x hx
  rw [hp.get, if_neg, hx]
  rintro rfl
  rw [hid] at hx
  cases hx

theorem find (h : s.Linked) (w : Owner) :
    t.find w = if r.owner? = some w then some r else s.find w := by
  by_cases hw : r.owner? = some w
  · rw [ContextStore.find, hp.owners, if_pos hw, if_pos hw]
    show t.get r.id = some r
    rw [hp.get, if_pos rfl]
  · rw [ContextStore.find, hp.owners, if_neg hw, if_neg hw, ContextStore.find]
    split
    · rfl
    next id hindex =>
      show t.get id = s.get id
      rw [hp.get, if_neg]
      rintro rfl
      exact h.leads hindex hid

end Puts

theorem Linked.put (h : s.Linked) (hp : s.Puts r t) : t.Linked := by
  refine ⟨?_, ?_⟩
  · intro id x hx
    rw [hp.get] at hx
    split at hx
    · next heq =>
      cases hx
      exact heq.symm
    · exact h.keyed hx
  · intro w id hw
    rw [hp.owners] at hw
    rw [hp.get]
    split
    · nofun
    · next hne =>
      split at hw
      · cases hw
        exact absurd rfl hne
      · exact h.leads hw

theorem Indexed.put (h : s.Indexed) (hp : s.Puts r t) (hid : s.get r.id = none)
    (howner : ∀ w, r.owner? = some w → s.owners.get? w = none) : t.Indexed := by
  refine ⟨(h.linked.put hp).keyed, ?_⟩
  intro w id
  rw [hp.owners]
  constructor
  · intro hw
    split at hw
    · next hr =>
      cases hw
      exact ⟨r, by rw [hp.get, if_pos rfl], hr⟩
    · obtain ⟨x, hx, hxw⟩ := h.indexed.1 hw
      exact ⟨x, hp.keeps hid id x hx, hxw⟩
  · rintro ⟨x, hx, hxw⟩
    rw [hp.get] at hx
    split at hx
    · next heq =>
      cases hx
      rw [if_pos hxw, heq]
    · have hw := h.indexed.2 ⟨x, hx, hxw⟩
      rw [if_neg, hw]
      intro hr
      rw [howner w hr] at hw
      cases hw

end Clearance.ContextStore
