import Clearance.Proofs.Context.Ascent

/-! Containment in a tree of contexts. A context contains those whose way up to the root passes
through it, and the way of each of them begins with its own. -/
namespace Clearance

theorem Context.contains_iff {c d : Context} : c.contains d = true ↔ c.id ∈ d.ancestors :=
  List.contains_iff_mem

namespace ContextStore

variable {allowed : Owner → Option Owner → Prop} {s : ContextStore} {c d : Context}
  {id a : ContextId} {l : List ContextId}

/-- The context is made from a record of the store. -/
def Holds (s : ContextStore) (c : Context) : Prop := s.get c.id = some c.record

theorem Ascent.exists_record (h : s.Ascent id l) : ∃ r, s.get id = some r := by
  cases h with
  | top hr _ => exact ⟨_, hr⟩
  | step hr _ _ => exact ⟨_, hr⟩

theorem Ascent.exists_append (h : s.Ascent id l) (ha : a ∈ l) :
    ∃ l', s.Ascent a l' ∧ l' <+: l := by
  induction h with
  | top hr hp =>
    cases List.mem_singleton.1 ha
    exact ⟨_, .top hr hp, List.prefix_refl _⟩
  | step hr hp hl ih =>
    rcases List.mem_append.1 ha with ha | ha
    · obtain ⟨l', hl', hprefix⟩ := ih ha
      exact ⟨l', hl', hprefix.trans (List.prefix_append _ _)⟩
    · cases List.mem_singleton.1 ha
      exact ⟨_, .step hr hp hl, List.prefix_refl _⟩

namespace Rooted

variable (h : Rooted allowed s)

include h

/-- The ancestors of a stored context are the contexts on its way up. -/
theorem ascent (hc : s.Holds c) : s.Ascent c.id c.ancestors := by
  obtain ⟨c', hc', hascent, -⟩ := h.exists_context hc
  cases (Context.ofRecord_record c).symm.trans hc'
  exact hascent

theorem path_eq (hc : s.Holds c) : c.path = String.ofList (Path.write c.ancestors) := by
  obtain ⟨l, -, hpath, hlineage, -, -⟩ := h.exists_ascent hc
  have hancestors : c.ancestors = l := Option.some.inj (c.lineage.path.symm.trans hlineage.path)
  rw [hancestors]
  exact hpath

/-- The ancestors of a context begin with those of every context that contains it. -/
theorem prefix_of_contains (hc : s.Holds c) (hd : s.Holds d) (hcd : c.contains d = true) :
    c.ancestors <+: d.ancestors := by
  obtain ⟨l, hl, hprefix⟩ := (h.ascent hd).exists_append (Context.contains_iff.1 hcd)
  rw [(h.ascent hc).unique hl]
  exact hprefix

theorem exists_holds_of_get {r : Record} (hg : s.get id = some r) :
    ∃ c, s.Holds c ∧ c.record = r ∧ c.id = id := by
  obtain ⟨c, hc, -⟩ := h.exists_context hg
  have hrecord : c.record = r := Context.record_of_ofRecord hc
  have hid : c.id = id := by
    rw [Context.id, hrecord]
    exact (h.numbered hg).1
  refine ⟨c, ?_, hrecord, hid⟩
  rw [Holds, hid, hrecord]
  exact hg

/-- Every ancestor of a stored context is stored, too. -/
theorem exists_holds (hd : s.Holds d) (ha : a ∈ d.ancestors) : ∃ c, s.Holds c ∧ c.id = a := by
  obtain ⟨l, hl, -⟩ := (h.ascent hd).exists_append ha
  obtain ⟨r, hr⟩ := hl.exists_record
  obtain ⟨c, hc, -, hid⟩ := h.exists_holds_of_get hr
  exact ⟨c, hc, hid⟩

/-- A stored context other than the root stands below a stored one, and its way up is that of the
other one and then itself. -/
theorem exists_above (hc : s.Holds c) (hid : c.id ≠ rootId) : ∃ p, s.Holds p ∧
    c.record.parent = some p.id ∧ c.ancestors = p.ancestors ++ [c.id] := by
  obtain ⟨r, w, hr, -, -, hrecord⟩ := h.placed hc hid
  obtain ⟨p, hp, -, hpid⟩ := h.exists_holds_of_get hr
  have hparent : c.record.parent = some p.id := by
    rw [hrecord, hpid]
    rfl
  exact ⟨p, hp, hparent, (h.ascent hc).unique (.step hc hparent (h.ascent hp))⟩

end Rooted

end ContextStore

end Clearance
