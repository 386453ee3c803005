import Clearance.Permission.Snapshot

/-! What a snapshot says that was made of rows. The permissions at a context are those of all rows
there, and a role is called as its last row there calls it. -/
namespace Clearance

theorem SortedSet.contains_insertMany {α : Type} [Ord α] [Std.TransOrd α] [Std.LawfulEqOrd α]
    (l : List α) (s : SortedSet α) (a : α) :
    (s.insertMany l).contains a = true ↔ a ∈ l ∨ s.contains a = true := by
  induction l generalizing s with
  | nil => simp [insertMany]
  | cons b l ih =>
    have hinsert : (s.insert b).contains a = true ↔ a = b ∨ s.contains a = true := by
      by_cases hab : a = b
      · subst hab
        simp [contains_insert_self]
      · simp [contains_insert_of_ne s hab, hab]
    have hfold : s.insertMany (b :: l) = (s.insert b).insertMany l := rfl
    rw [hfold, ih, hinsert, List.mem_cons]
    constructor
    · rintro (h | h | h)
      · exact .inl (.inr h)
      · exact .inl (.inl h)
      · exact .inr h
    · rintro ((h | h) | h)
      · exact .inr (.inl h)
      · exact .inl h
      · exact .inr (.inr h)

namespace Snapshot

def permits (p : Snapshot) (c : ContextId) (permission : String) : Bool :=
  (p.at? c).any (·.hasPermission permission)

def roleName? (p : Snapshot) (c : ContextId) (role : RoleId) : Option String :=
  (p.at? c).bind (·.roles.get? role)

def holds (p : Snapshot) (c : ContextId) (name : String) : Bool :=
  (p.at? c).any (·.hasRole name)

theorem holds_iff (p : Snapshot) (c : ContextId) (name : String) :
    p.holds c name = true ↔ ∃ role, p.roleName? c role = some name := by
  unfold holds roleName?
  cases p.at? c with
  | none => simp
  | some g =>
    have hvalues : name ∈ g.roles.values ↔ ∃ role, g.roles.get? role = some name := by
      simp only [SortedMap.values, List.mem_map, Prod.exists]
      constructor
      · rintro ⟨role, _, he, rfl⟩
        exact ⟨role, (SortedMap.mem_entries_iff _).1 he⟩
      · rintro ⟨role, he⟩
        exact ⟨role, name, (SortedMap.mem_entries_iff _).2 he, rfl⟩
    simpa [Grants.hasRole] using hvalues

theorem isSuperAdmin_eq_holds (p : Snapshot) : p.isSuperAdmin = p.holds rootId superAdmin := rfl

section Add

variable (p : Snapshot) (r : Row) (c : ContextId)

theorem at?_addRow : (p.addRow r).at? c = if c = r.context then
    some (((p.at? r.context).getD .empty).add r.role r.roleName r.permissions) else p.at? c := by
  split
  · next h =>
    subst h
    exact SortedMap.get?_insert_self ..
  · next h => exact SortedMap.get?_insert_of_ne _ _ h

theorem permits_addRow (permission : String) : (p.addRow r).permits c permission = true ↔
    (r.context = c ∧ permission ∈ r.permissions) ∨ p.permits c permission = true := by
  by_cases hc : c = r.context
  · subst hc
    have hold : ((p.at? r.context).getD .empty).permissions.contains permission = true ↔
        p.permits r.context permission = true := by
      unfold permits
      cases p.at? r.context with
      | none => simp [Grants.empty, SortedSet.contains, SortedSet.empty, SortedMap.contains]
      | some g => exact Iff.rfl
    rw [permits, at?_addRow, if_pos rfl]
    simp only [Option.any_some, Grants.hasPermission, Grants.add, SortedSet.contains_insertMany,
      hold, true_and]
  · have hc' : ¬r.context = c := fun h => hc h.symm
    rw [permits, at?_addRow, if_neg hc]
    simp [hc', permits]

theorem roleName?_addRow (role : RoleId) : (p.addRow r).roleName? c role =
    if r.context = c ∧ r.role = role then some r.roleName else p.roleName? c role := by
  by_cases hc : c = r.context
  · subst hc
    rw [roleName?, at?_addRow, if_pos rfl]
    simp only [Option.bind_some, Grants.add, true_and]
    by_cases hr : r.role = role
    · subst hr
      rw [SortedMap.get?_insert_self, if_pos rfl]
    · rw [SortedMap.get?_insert_of_ne _ _ fun h => hr h.symm, if_neg hr, roleName?]
      cases p.at? r.context <;> rfl
  · rw [if_neg fun h => hc h.1.symm, roleName?, at?_addRow, if_neg hc]
    rfl

end Add

/-- A permission is granted where one of the rows grants it. -/
theorem permits_ofRows (rows : List Row) (c : ContextId) (permission : String) :
    (ofRows rows).permits c permission = true ↔
      ∃ r ∈ rows, r.context = c ∧ permission ∈ r.permissions := by
  have hfold : ∀ (rows : List Row) (p : Snapshot), (rows.foldl addRow p).permits c permission =
      true ↔ (∃ r ∈ rows, r.context = c ∧ permission ∈ r.permissions) ∨
        p.permits c permission = true := by
    intro rows
    induction rows with
    | nil => simp
    | cons r rows ih =>
      intro p
      rw [List.foldl_cons, ih, permits_addRow]
      simp only [List.mem_cons, exists_eq_or_imp]
      constructor
      · rintro (h | h | h)
        · exact .inl (.inr h)
        · exact .inl (.inl h)
        · exact .inr h
      · rintro ((h | h) | h)
        · exact .inr (.inl h)
        · exact .inl h
        · exact .inr (.inr h)
  have hempty : ¬empty.permits c permission = true := nofun
  rw [ofRows, hfold]
  simp [hempty]

/-- A role is called as the last of its rows at the context calls it. -/
theorem roleName?_ofRows (rows : List Row) (c : ContextId) (role : RoleId) :
    (ofRows rows).roleName? c role =
      ((rows.filter fun r => r.context = c ∧ r.role = role).getLast?).map (·.roleName) := by
  have hfold : ∀ (rows : List Row) (p : Snapshot), (rows.foldl addRow p).roleName? c role =
      (((rows.filter fun r => r.context = c ∧ r.role = role).getLast?).map (·.roleName)).or
        (p.roleName? c role) := by
    intro rows
    induction rows with
    | nil => intro p; rfl
    | cons r rows ih =>
      intro p
      rw [List.foldl_cons, ih, roleName?_addRow, List.filter_cons]
      by_cases hr : r.context = c ∧ r.role = role
      · simp only [hr, and_self, decide_true, if_true, List.getLast?_cons]
        cases (rows.filter fun r => r.context = c ∧ r.role = role).getLast? <;> rfl
      · rw [if_neg hr, if_neg (by simpa using hr)]
  have hempty : empty.roleName? c role = none := rfl
  rw [ofRows, hfold, hempty, Option.or_none]

end Snapshot

end Clearance
