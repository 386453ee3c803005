/-! Finite maps kept as lists whose keys ascend strictly, so that maps with the same lookups are
equal values. -/
namespace Clearance

open Std (OrientedCmp TransCmp TransOrd LawfulEqOrd)

def KeysAscend {α β : Type} [Ord α] (l : List (α × β)) : Prop :=
  l.Pairwise fun a b => compare a.1 b.1 = .lt

/-- A finite map; its entries are held in ascending order of their keys. -/
structure SortedMap (α β : Type) [Ord α] where
  entries : List (α × β)
  ascend : KeysAscend entries

namespace SortedMap

variable {α β : Type} [Ord α]

instance [DecidableEq α] [DecidableEq β] : DecidableEq (SortedMap α β) := fun a b =>
  if h : a.entries = b.entries then isTrue (by cases a; cases b; cases h; rfl)
  else isFalse fun e => h (e ▸ rfl)

theorem ext_entries {a b : SortedMap α β} (h : a.entries = b.entries) : a = b := by
  cases a; cases b; cases h; rfl

def empty : SortedMap α β := ⟨[], .nil⟩

instance : EmptyCollection (SortedMap α β) := ⟨empty⟩
instance : Inhabited (SortedMap α β) := ⟨empty⟩

def find (k : α) : List (α × β) → Option β
  | [] => none
  | (k', v) :: rest => if compare k k' = .eq then some v else find k rest

/-- Puts an entry in its place, over one that has the same key. -/
def put (k : α) (v : β) : List (α × β) → List (α × β)
  | [] => [(k, v)]
  | (k', v') :: rest =>
    match compare k k' with
    | .lt => (k, v) :: (k', v') :: rest
    | .eq => (k, v) :: rest
    | .gt => (k', v') :: put k v rest

def drop (k : α) (l : List (α × β)) : List (α × β) :=
  l.filter fun e => compare k e.1 != .eq

theorem mem_put {k : α} {v : β} {e : α × β} {l : List (α × β)} (h : e ∈ put k v l) :
    e = (k, v) ∨ e ∈ l := by
  induction l with
  | nil => simpa [put] using h
  | cons a rest ih =>
    unfold put at h
    split at h
    · simpa using h
    · rcases List.mem_cons.1 h with h | h
      · exact .inl h
      · exact .inr (List.mem_cons_of_mem _ h)
    · rcases List.mem_cons.1 h with h | h
      · exact .inr (h ▸ List.mem_cons_self ..)
      · exact (ih h).imp id (List.mem_cons_of_mem _)

theorem keysAscend_put [TransOrd α] (k : α) (v : β) {l : List (α × β)} (h : KeysAscend l) :
    KeysAscend (put k v l) := by
  induction l with
  | nil => exact List.pairwise_singleton _ _
  | cons a rest ih =>
    obtain ⟨ha, hr⟩ := List.pairwise_cons.1 h
    unfold put
    split
    · next hk =>
      refine List.pairwise_cons.2 ⟨fun e he => ?_, h⟩
      rcases List.mem_cons.1 he with rfl | he
      · exact hk
      · exact TransCmp.lt_trans hk (ha e he)
    · next hk =>
      exact List.pairwise_cons.2 ⟨fun e he => TransCmp.lt_of_eq_of_lt hk (ha e he), hr⟩
    · next hk =>
      refine List.pairwise_cons.2 ⟨fun e he => ?_, ih hr⟩
      rcases mem_put he with rfl | he
      · exact OrientedCmp.lt_of_gt hk
      · exact ha e he

theorem keysAscend_drop (k : α) {l : List (α × β)} (h : KeysAscend l) : KeysAscend (drop k l) :=
  List.Pairwise.sublist List.filter_sublist h

def get? (m : SortedMap α β) (k : α) : Option β := find k m.entries

def contains (m : SortedMap α β) (k : α) : Bool := (m.get? k).isSome

def size (m : SortedMap α β) : Nat := m.entries.length

def isEmpty (m : SortedMap α β) : Bool := m.entries.isEmpty

def keys (m : SortedMap α β) : List α := m.entries.map (·.1)

def values (m : SortedMap α β) : List β := m.entries.map (·.2)

def insert [TransOrd α] (m : SortedMap α β) (k : α) (v : β) : SortedMap α β :=
  ⟨put k v m.entries, keysAscend_put k v m.ascend⟩

def erase (m : SortedMap α β) (k : α) : SortedMap α β :=
  ⟨drop k m.entries, keysAscend_drop k m.ascend⟩

/-- Of entries with one key the last is kept. -/
def ofList [TransOrd α] (l : List (α × β)) : SortedMap α β :=
  l.foldl (fun m e => m.insert e.1 e.2) empty

@[simp] theorem get?_empty (k : α) : (empty : SortedMap α β).get? k = none := rfl

@[simp] theorem get?_insert_self [TransOrd α] (m : SortedMap α β) (k : α) (v : β) :
    (m.insert k v).get? k = some v := by
  obtain ⟨l, h⟩ := m
  simp only [get?, insert]
  clear h
  induction l with
  | nil => simp [put, find]
  | cons a rest ih =>
    unfold put
    split
    · simp [find]
    · simp [find]
    · next hk => simp [find, hk, ih]

theorem get?_insert_of_ne [TransOrd α] [LawfulEqOrd α] (m : SortedMap α β) {k k' : α} (v : β)
    (hne : k' ≠ k) : (m.insert k v).get? k' = m.get? k' := by
  have hc : compare k' k ≠ .eq := fun h => hne (LawfulEqOrd.eq_of_compare h)
  obtain ⟨l, h⟩ := m
  simp only [get?, insert]
  clear h
  induction l with
  | nil => simp [put, find, hc]
  | cons a rest ih =>
    unfold put
    split
    · simp [find, hc]
    · next hk =>
      have : k = a.1 := LawfulEqOrd.eq_of_compare hk
      simp [find, hc, ← this]
    · simp only [find, ih]

theorem find_drop_self (k : α) (l : List (α × β)) : find k (drop k l) = none := by
  induction l with
  | nil => rfl
  | cons a rest ih =>
    simp only [drop, List.filter_cons]
    split
    · next h =>
      have h : compare k a.1 ≠ .eq := by simpa using h
      simp only [find, h, if_false]
      exact ih
    · exact ih

theorem find_drop_of_ne [LawfulEqOrd α] {k k' : α} (l : List (α × β)) (hne : k' ≠ k) :
    find k' (drop k l) = find k' l := by
  induction l with
  | nil => rfl
  | cons a rest ih =>
    simp only [drop, List.filter_cons]
    split
    · simp only [find]
      exact congrArg (if compare k' a.1 = .eq then some a.2 else ·) ih
    · next h =>
      have h : compare k a.1 = .eq := by simpa using h
      have : k = a.1 := LawfulEqOrd.eq_of_compare h
      have hc : compare k' a.1 ≠ .eq := fun h => hne (this ▸ LawfulEqOrd.eq_of_compare h)
      simp only [find, hc, if_false]
      exact ih

@[simp] theorem get?_erase_self (m : SortedMap α β) (k : α) : (m.erase k).get? k = none :=
  find_drop_self k m.entries

theorem get?_erase_of_ne [LawfulEqOrd α] (m : SortedMap α β) {k k' : α} (hne : k' ≠ k) :
    (m.erase k).get? k' = m.get? k' := find_drop_of_ne m.entries hne

theorem get?_erase_of_none [LawfulEqOrd α] {m : SortedMap α β} {k k' : α}
    (h : m.get? k' = none) : (m.erase k).get? k' = none := by
  by_cases hk : k' = k
  · rw [hk, get?_erase_self]
  · rw [get?_erase_of_ne m hk, h]

theorem get?_insert_eq_some [TransOrd α] [LawfulEqOrd α] {m : SortedMap α β} {k k' : α}
    {v w : β} (h : (m.insert k v).get? k' = some w) :
    k' = k ∧ w = v ∨ k' ≠ k ∧ m.get? k' = some w := by
  by_cases hk : k' = k
  · subst hk
    rw [get?_insert_self] at h
    exact .inl ⟨rfl, (Option.some.inj h).symm⟩
  · rw [get?_insert_of_ne _ _ hk] at h
    exact .inr ⟨hk, h⟩

theorem get?_of_erase [LawfulEqOrd α] {m : SortedMap α β} {k k' : α} {w : β}
    (h : (m.erase k).get? k' = some w) : k' ≠ k ∧ m.get? k' = some w := by
  by_cases hk : k' = k
  · rw [hk, get?_erase_self] at h
    cases h
  · rw [get?_erase_of_ne _ hk] at h
    exact ⟨hk, h⟩

theorem find_eq_none_of_lt {k : α} {l : List (α × β)} (h : ∀ e ∈ l, compare k e.1 = .lt) :
    find k l = none := by
  induction l with
  | nil => rfl
  | cons a rest ih =>
    simp [find, h a (List.mem_cons_self ..), ih fun e he => h e (List.mem_cons_of_mem _ he)]

theorem size_insert_of_none [TransOrd α] (m : SortedMap α β) {k : α} (v : β)
    (h : m.get? k = none) : (m.insert k v).size = m.size + 1 := by
  obtain ⟨l, hl⟩ := m
  simp only [get?, insert, size] at h ⊢
  clear hl
  induction l with
  | nil => rfl
  | cons a rest ih =>
    unfold put
    split
    · rfl
    · next hk => simp [find, hk] at h
    · next hk => simp [ih (by simpa [find, hk] using h)]

theorem size_le_size_insert [TransOrd α] (m : SortedMap α β) (k : α) (v : β) :
    m.size ≤ (m.insert k v).size := by
  obtain ⟨l, hl⟩ := m
  simp only [insert, size]
  clear hl
  induction l with
  | nil => simp [put]
  | cons a rest ih =>
    unfold put
    split
    · simp
    · simp
    · simpa using ih

theorem mem_entries_iff [TransOrd α] [LawfulEqOrd α] (m : SortedMap α β) {k : α} {v : β} :
    (k, v) ∈ m.entries ↔ m.get? k = some v := by
  obtain ⟨l, h⟩ := m
  simp only [get?]
  induction l with
  | nil => simp [find]
  | cons a rest ih =>
    obtain ⟨ha, hr⟩ := List.pairwise_cons.1 h
    by_cases hk : compare k a.1 = .eq
    · have hka : k = a.1 := LawfulEqOrd.eq_of_compare hk
      have hn : (k, v) ∉ rest := fun hm => by
        have := ha _ hm
        rw [← hka] at this
        simp at this
      simp only [find, hk, if_true, List.mem_cons, hn, or_false, Option.some.injEq]
      constructor
      · intro e; exact (congrArg Prod.snd e).symm
      · intro e; exact Prod.ext hka e.symm
    · have hne : (k, v) ≠ a := fun e => hk (by rw [← e]; simp)
      simp [find, hk, hne, ih hr]

theorem size_le_of_get? [TransOrd α] [LawfulEqOrd α] {a b : SortedMap α β}
    (h : ∀ k v, a.get? k = some v → b.get? k = some v) : a.size ≤ b.size := by
  have hnodup : a.entries.Nodup := a.ascend.imp fun {x y} hxy he => by
    subst he
    simp at hxy
  refine hnodup.length_le_of_subset fun e he => ?_
  have := h e.1 e.2 ((mem_entries_iff a).1 he)
  exact (mem_entries_iff b).2 this

theorem put_of_lt [TransOrd α] {k : α} {v : β} {l : List (α × β)}
    (h : ∀ e ∈ l, compare e.1 k = .lt) : put k v l = l ++ [(k, v)] := by
  induction l with
  | nil => rfl
  | cons a rest ih =>
    rw [List.forall_mem_cons] at h
    have hgt : compare k a.1 = .gt := OrientedCmp.gt_of_lt h.1
    simp [put, hgt, ih h.2]

theorem ofList_entries [TransOrd α] (m : SortedMap α β) : ofList m.entries = m := by
  have hfold : ∀ (l : List (α × β)) (m : SortedMap α β), KeysAscend (m.entries ++ l) →
      (l.foldl (fun m e => m.insert e.1 e.2) m).entries = m.entries ++ l := by
    intro l
    induction l with
    | nil =>
      intro m _
      exact (List.append_nil _).symm
    | cons e l ih =>
      intro m h
      have hlt : ∀ x ∈ m.entries, compare x.1 e.1 = .lt := fun x hx =>
        (List.pairwise_append.1 h).2.2 x hx e (List.mem_cons_self ..)
      have hinsert : (m.insert e.1 e.2).entries = m.entries ++ [e] := put_of_lt hlt
      rw [List.foldl_cons, ih _ (by rw [hinsert, List.append_assoc]; exact h), hinsert,
        List.append_assoc]
      rfl
  exact ext_entries (hfold m.entries empty m.ascend)

theorem ext_get? [TransOrd α] [LawfulEqOrd α] {a b : SortedMap α β}
    (h : ∀ k, a.get? k = b.get? k) : a = b := by
  apply ext_entries
  obtain ⟨la, ha⟩ := a
  obtain ⟨lb, hb⟩ := b
  simp only [get?] at h ⊢
  induction la generalizing lb with
  | nil =>
    cases lb with
    | nil => rfl
    | cons b rest => simpa [find] using h b.1
  | cons a rest ih =>
    obtain ⟨har, hr⟩ := List.pairwise_cons.1 ha
    cases lb with
    | nil => simpa [find] using h a.1
    | cons b rest' =>
      obtain ⟨hbr, hr'⟩ := List.pairwise_cons.1 hb
      cases hc : compare a.1 b.1 with
      | lt =>
        have h1 := h a.1
        rw [find_eq_none_of_lt (l := b :: rest') fun e he => by
          rcases List.mem_cons.1 he with rfl | he
          · exact hc
          · exact TransCmp.lt_trans hc (hbr e he)] at h1
        simp [find] at h1
      | gt =>
        have hc' := OrientedCmp.lt_of_gt hc
        have h1 := h b.1
        rw [find_eq_none_of_lt (l := a :: rest) fun e he => by
          rcases List.mem_cons.1 he with rfl | he
          · exact hc'
          · exact TransCmp.lt_trans hc' (har e he)] at h1
        simp [find] at h1
      | eq =>
        have hk : a.1 = b.1 := LawfulEqOrd.eq_of_compare hc
        have hv : a.2 = b.2 := by simpa [find, hk] using h a.1
        have hab : a = b := Prod.ext hk hv
        subst hab
        refine congrArg _ (ih hr rest' hr' fun k => ?_)
        have hk := h k
        by_cases hka : compare k a.1 = .eq
        · have : k = a.1 := LawfulEqOrd.eq_of_compare hka
          rw [this, find_eq_none_of_lt har, find_eq_none_of_lt hbr]
        · simpa [find, hka] using hk

end SortedMap

end Clearance
