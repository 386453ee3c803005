import Clearance.Permission.Codec
import Clearance.Proofs.Permission.Rows

/-! Rows in another order, and rows given again. A snapshot is determined by what it says of each
context, so that rows which say the same make the same snapshot and the same bytes. -/
namespace Clearance

open Std (TransOrd LawfulEqOrd)

theorem SortedSet.ext_contains {α : Type} [Ord α] [TransOrd α] [LawfulEqOrd α] {s t : SortedSet α}
    (h : ∀ a, s.contains a = t.contains a) : s = t := by
  apply SortedMap.ext_get?
  intro a
  have ha : (s.get? a).isSome = (t.get? a).isSome := h a
  cases hs : s.get? a with
  | none => cases ht : t.get? a with
    | none => rfl
    | some u => simp [hs, ht] at ha
  | some u => cases ht : t.get? a with
    | none => simp [hs, ht] at ha
    | some u' => rfl

namespace Row

/-- The rows say the same; the order of the permissions does not matter, nor do repeated ones. -/
structure Alike (r r' : Row) : Prop where
  role : r.role = r'.role
  roleName : r.roleName = r'.roleName
  context : r.context = r'.context
  permissions : ∀ permission, permission ∈ r.permissions ↔ permission ∈ r'.permissions

instance (r r' : Row) : Decidable (r.Alike r') :=
  decidable_of_iff (r.role = r'.role ∧ r.roleName = r'.roleName ∧ r.context = r'.context ∧
      (∀ x ∈ r.permissions, x ∈ r'.permissions) ∧ ∀ x ∈ r'.permissions, x ∈ r.permissions)
    ⟨fun ⟨a, b, c, d, e⟩ => ⟨a, b, c, fun x => ⟨d x, e x⟩⟩,
      fun ⟨a, b, c, d⟩ => ⟨a, b, c, fun x => (d x).1, fun x => (d x).2⟩⟩

/-- The lists have the same rows; their order does not matter, nor do repeated ones. -/
structure SameRows (rows rows' : List Row) : Prop where
  forth : ∀ r ∈ rows, ∃ r' ∈ rows', r.Alike r'
  back : ∀ r' ∈ rows', ∃ r ∈ rows, r.Alike r'

instance (rows rows' : List Row) : Decidable (SameRows rows rows') :=
  decidable_of_iff ((∀ r ∈ rows, ∃ r' ∈ rows', r.Alike r') ∧ ∀ r' ∈ rows', ∃ r ∈ rows, r.Alike r')
    ⟨fun ⟨a, b⟩ => ⟨a, b⟩, fun ⟨a, b⟩ => ⟨a, b⟩⟩

theorem SameRows.exists_iff {rows rows' : List Row} (h : SameRows rows rows') {P : Row → Prop}
    (hP : ∀ r r', r.Alike r' → (P r ↔ P r')) : (∃ r ∈ rows, P r) ↔ ∃ r' ∈ rows', P r' := by
  constructor
  · rintro ⟨r, hr, hPr⟩
    obtain ⟨r', hr', halike⟩ := h.forth r hr
    exact ⟨r', hr', (hP r r' halike).1 hPr⟩
  · rintro ⟨r', hr', hPr'⟩
    obtain ⟨r, hr, halike⟩ := h.back r' hr'
    exact ⟨r, hr, (hP r r' halike).2 hPr'⟩

/-- A role that is held at a context is called by one name in all rows about that. -/
def NamedOnce (rows : List Row) : Prop := ∀ r ∈ rows, ∀ r' ∈ rows,
  r.context = r'.context → r.role = r'.role → r.roleName = r'.roleName

instance (rows : List Row) : Decidable (NamedOnce rows) := by
  unfold NamedOnce
  infer_instance

theorem NamedOnce.of_sameRows {rows rows' : List Row} (h : NamedOnce rows)
    (hsame : SameRows rows rows') : NamedOnce rows' := by
  intro a ha b hb hcontext hrole
  obtain ⟨r, hr, hra⟩ := hsame.back a ha
  obtain ⟨r', hr', hrb⟩ := hsame.back b hb
  have hname := h r hr r' hr' (by rw [hra.context, hrb.context, hcontext])
    (by rw [hra.role, hrb.role, hrole])
  rw [← hra.roleName, ← hrb.roleName, hname]

end Row

namespace Snapshot

open Row (NamedOnce SameRows)

variable {rows rows' : List Row} {c : ContextId}

theorem ext_views {p q : Snapshot} (hlisted : ∀ c, (p.at? c).isSome = (q.at? c).isSome)
    (hname : ∀ c role, p.roleName? c role = q.roleName? c role)
    (hpermits : ∀ c permission, p.permits c permission = q.permits c permission) : p = q := by
  have hat : ∀ c, p.at? c = q.at? c := by
    intro c
    have hlisted := hlisted c
    have hname := hname c
    have hpermits := hpermits c
    unfold roleName? at hname
    unfold permits at hpermits
    cases hp : p.at? c with
    | none => cases hq : q.at? c with
      | none => rfl
      | some g' => simp [hp, hq] at hlisted
    | some g => cases hq : q.at? c with
      | none => simp [hp, hq] at hlisted
      | some g' =>
        simp only [hp, hq, Option.bind_some, Option.any_some] at hname hpermits
        have hroles : g.roles = g'.roles := SortedMap.ext_get? hname
        have hpermissions : g.permissions = g'.permissions := SortedSet.ext_contains hpermits
        obtain ⟨roles, permissions⟩ := g
        cases hroles
        cases hpermissions
        rfl
  have hcontexts : p.contexts = q.contexts := SortedMap.ext_get? hat
  obtain ⟨contexts⟩ := p
  cases hcontexts
  rfl

theorem isSome_at?_ofRows (rows : List Row) (c : ContextId) :
    ((ofRows rows).at? c).isSome = true ↔ ∃ r ∈ rows, r.context = c := by
  have hfold : ∀ (rows : List Row) (p : Snapshot), ((rows.foldl addRow p).at? c).isSome = true ↔
      (∃ r ∈ rows, r.context = c) ∨ (p.at? c).isSome = true := by
    intro rows
    induction rows with
    | nil => simp
    | cons r rows ih =>
      intro p
      have hrow : ((p.addRow r).at? c).isSome = true ↔ r.context = c ∨ (p.at? c).isSome = true := by
        rw [at?_addRow]
        by_cases hc : c = r.context
        · simp [hc]
        · have hc' : ¬r.context = c := fun h => hc h.symm
          simp [hc, hc']
      rw [List.foldl_cons, ih, hrow]
      simp only [List.mem_cons, exists_eq_or_imp]
      rw [or_left_comm, or_assoc]
  have hempty : ¬(empty.at? c).isSome = true := nofun
  rw [ofRows, hfold]
  simp [hempty]

theorem roleName?_ofRows_eq_some (h : NamedOnce rows) {role : RoleId} {name : String} :
    (ofRows rows).roleName? c role = some name ↔
      ∃ r ∈ rows, r.context = c ∧ r.role = role ∧ r.roleName = name := by
  have hmem : ∀ r, r ∈ rows.filter (fun r => r.context = c ∧ r.role = role) ↔
      r ∈ rows ∧ r.context = c ∧ r.role = role := by
    simp [List.mem_filter]
  rw [roleName?_ofRows, Option.map_eq_some_iff]
  constructor
  · rintro ⟨r, hlast, hname⟩
    obtain ⟨hr, hcontext, hrole⟩ := (hmem r).1 (List.mem_of_getLast? hlast)
    exact ⟨r, hr, hcontext, hrole, hname⟩
  · rintro ⟨r, hr, hcontext, hrole, hname⟩
    have hmem' := (hmem r).2 ⟨hr, hcontext, hrole⟩
    obtain ⟨r', hlast⟩ := Option.ne_none_iff_exists'.1
      (mt List.getLast?_eq_none_iff.1 (List.ne_nil_of_mem hmem'))
    obtain ⟨hr', hcontext', hrole'⟩ := (hmem r').1 (List.mem_of_getLast? hlast)
    -- the last row about the role calls it as any other one does
    have hsame := h r' hr' r hr (hcontext'.trans hcontext.symm) (hrole'.trans hrole.symm)
    exact ⟨r', hlast, hsame.trans hname⟩

/-- The same rows make the same snapshot. -/
theorem ofRows_eq_ofRows (h : NamedOnce rows) (hsame : SameRows rows rows') :
    ofRows rows = ofRows rows' := by
  have h' := h.of_sameRows hsame
  apply ext_views
  · intro c
    rw [Bool.eq_iff_iff, isSome_at?_ofRows, isSome_at?_ofRows]
    apply hsame.exists_iff
    intro r r' halike
    rw [halike.context]
  · intro c role
    apply Option.ext
    intro name
    rw [roleName?_ofRows_eq_some h, roleName?_ofRows_eq_some h']
    apply hsame.exists_iff
    intro r r' halike
    rw [halike.context, halike.role, halike.roleName]
  · intro c permission
    rw [Bool.eq_iff_iff, permits_ofRows, permits_ofRows]
    apply hsame.exists_iff
    intro r r' halike
    rw [halike.context, halike.permissions]

/-- Rows that differ in order and repetition only make one snapshot, with the same bytes. Whatever
the rows, the last one about a role at a context names it there, and a context has the permissions
of all its rows. -/
theorem ofRows_canonical (rows rows' : List Row) :
    (NamedOnce rows → SameRows rows rows' →
      ofRows rows = ofRows rows' ∧ (ofRows rows).toBytes = (ofRows rows').toBytes) ∧
    (∀ c, ((ofRows rows).at? c).isSome = true ↔ ∃ r ∈ rows, r.context = c) ∧
    (∀ c role, (ofRows rows).roleName? c role =
      ((rows.filter fun r => r.context = c ∧ r.role = role).getLast?).map (·.roleName)) ∧
    ∀ c permission, (ofRows rows).permits c permission = true ↔
      ∃ r ∈ rows, r.context = c ∧ permission ∈ r.permissions := by
  refine ⟨fun h hsame => ?_, isSome_at?_ofRows rows, roleName?_ofRows rows, permits_ofRows rows⟩
  have heq := ofRows_eq_ofRows h hsame
  exact ⟨heq, congrArg toBytes heq⟩

/-- Two rows in both orders. Then the student's is given twice, and the editor's has its permissions
in another order and one of them twice. -/
theorem ofRows_canonical_shuffled :
    let editor : Row := ⟨9, "editor", 5, ["edit", "view"]⟩
    let student : Row := ⟨3, "student", 5, ["view"]⟩
    let rows := [editor, student]
    let rows' := [student, ⟨9, "editor", 5, ["view", "edit", "view"]⟩, student]
    NamedOnce rows ∧ SameRows rows rows' ∧ ofRows rows = ofRows rows' ∧
      (ofRows rows).toBytes = (ofRows rows').toBytes := by
  intro editor student rows rows'
  have hnamed : NamedOnce rows := by decide
  have hsame : SameRows rows rows' := by decide
  obtain ⟨heq, hbytes⟩ := (ofRows_canonical rows rows').1 hnamed hsame
  exact ⟨hnamed, hsame, heq, hbytes⟩

end Snapshot

end Clearance
