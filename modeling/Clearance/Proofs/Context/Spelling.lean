import Clearance.Context.Basic
import Clearance.Proofs.Text.Numeral
import Mathlib.Data.List.Forall2

/-! Which records are valid, said without a reader. The path is cut at its slashes, the pieces are
numerals, and the ids that they stand for lead from the root to the record. Numerals may be spelled
in several ways, and so may paths; the path that is written is the plain one. -/
namespace Clearance

open Text (Numeral Plain)

theorem Id.read?_eq_some_iff {cs : List Char} {a : Int64} :
    read? cs = some a ↔ Numeral cs a.toInt := by
  rw [read?, Option.bind_eq_some_iff]
  constructor
  · rintro ⟨n, hn, ha⟩
    rw [toInt_of_ofInt? ha]
    exact Text.integer?_eq_some_iff.1 hn
  · intro h
    exact ⟨a.toInt, Text.integer?_eq_some_iff.2 h, ofInt?_toInt a⟩

namespace Path

/-- The text is these pieces, each closed by a slash. -/
structure Cut (cs : List Char) (pieces : List (List Char)) : Prop where
  text : cs = pieces.flatMap (· ++ ['/'])
  slashless : ∀ p ∈ pieces, '/' ∉ p

/-- The path is a numeral for each of the ids, of which there is at least one, closed by a slash. -/
def Spells (path : String) (ids : List ContextId) : Prop :=
  ids ≠ [] ∧ ∃ pieces, Cut path.toList pieces ∧
    List.Forall₂ (fun p id => Numeral p id.toInt) pieces ids

/-- Each id on the path is spelled plainly. -/
def IsPlain (path : String) : Prop := ∃ pieces, Cut path.toList pieces ∧ ∀ p ∈ pieces, Plain p

section Cut

variable {cs : List Char} {pieces : List (List Char)}

theorem pieces?_eq_some_iff : pieces? cs = some pieces ↔ Cut cs pieces := by
  constructor
  · intro h
    induction cs generalizing pieces with
    | nil =>
      cases h
      exact ⟨rfl, nofun⟩
    | cons c cs ih =>
      unfold pieces? at h
      split at h
      · cases h
      next ps hps =>
        obtain ⟨htext, hslash⟩ := ih hps
        split at h
        · next hc =>
          cases h
          refine ⟨by rw [hc, htext]; rfl, ?_⟩
          exact List.forall_mem_cons.2 ⟨List.not_mem_nil, hslash⟩
        · next hc =>
          split at h
          · cases h
          next p ps =>
            cases h
            rw [List.forall_mem_cons] at hslash
            refine ⟨by rw [htext]; rfl, List.forall_mem_cons.2 ⟨?_, hslash.2⟩⟩
            exact List.not_mem_cons_of_ne_of_not_mem (Ne.symm hc) hslash.1
  · rintro ⟨rfl, hslash⟩
    induction pieces with
    | nil => rfl
    | cons p ps ih =>
      rw [List.forall_mem_cons] at hslash
      rw [List.flatMap_cons, List.append_assoc, List.singleton_append,
        pieces?_append hslash.1, ih hslash.2]
      rfl

theorem Cut.unique {pieces' : List (List Char)} (h : Cut cs pieces) (h' : Cut cs pieces') :
    pieces = pieces' :=
  Option.some.inj ((pieces?_eq_some_iff.2 h).symm.trans (pieces?_eq_some_iff.2 h'))

theorem cut_write (ids : List ContextId) : Cut (write ids) (ids.map Id.write) :=
  pieces?_eq_some_iff.1 (pieces?_write ids)

end Cut

section Spells

variable {path : String} {ids : List ContextId} {pieces : List (List Char)}

theorem mapM_read?_eq_some_iff : pieces.mapM Id.read? = some ids ↔
    List.Forall₂ (fun p id => Numeral p id.toInt) pieces ids := by
  induction pieces generalizing ids with
  | nil =>
    rw [List.forall₂_nil_left_iff]
    exact ⟨fun h => (Option.some.inj h).symm, fun h => h ▸ rfl⟩
  | cons p ps ih =>
    simp only [List.mapM_cons, Option.bind_eq_bind, Option.bind_eq_some_iff,
      Id.read?_eq_some_iff, ih]
    constructor
    · rintro ⟨a, ha, as, has, h⟩
      cases h
      exact .cons ha has
    · rintro (⟨⟩ | ⟨ha, has⟩)
      exact ⟨_, ha, _, has, rfl⟩

/-- The paths that are read are those that spell ids, and these ids are read. -/
theorem read?_eq_some_iff : read? path = some ids ↔ Spells path ids := by
  constructor
  · intro h
    obtain ⟨pieces, hpieces, h⟩ := Option.bind_eq_some_iff.1 h
    split at h
    · cases h
    next hne =>
      have hread := mapM_read?_eq_some_iff.1 h
      refine ⟨?_, pieces, pieces?_eq_some_iff.1 hpieces, hread⟩
      rintro rfl
      rw [List.forall₂_nil_right_iff] at hread
      exact hne (by rw [hread]; rfl)
  · rintro ⟨hne, pieces, hcut, hread⟩
    refine Option.bind_eq_some_iff.2 ⟨pieces, pieces?_eq_some_iff.2 hcut, ?_⟩
    have hpieces : ¬pieces.isEmpty = true := by
      rw [List.isEmpty_iff]
      rintro rfl
      exact hne (List.forall₂_nil_left_iff.1 hread)
    rw [if_neg hpieces]
    exact mapM_read?_eq_some_iff.2 hread

/-- Numerals that are plain are the ones that are written for their values. -/
theorem eq_map_write_iff (h : List.Forall₂ (fun p id => Numeral p id.toInt) pieces ids) :
    pieces = ids.map Id.write ↔ ∀ p ∈ pieces, Plain p := by
  induction h with
  | nil => simp
  | cons hp _ ih => rw [List.map_cons, List.cons.injEq, ih, List.forall_mem_cons, Id.write,
      hp.eq_writeInteger_iff]

/-- Of the paths that spell the same ids the plain one is the one that is written. -/
theorem Spells.eq_write_iff (h : Spells path ids) :
    path = String.ofList (write ids) ↔ IsPlain path := by
  obtain ⟨-, pieces, hcut, hread⟩ := h
  have hplain := eq_map_write_iff hread
  constructor
  · rintro rfl
    rw [String.toList_ofList] at hcut
    have hpieces := hcut.unique (cut_write ids)
    exact ⟨pieces, by rwa [String.toList_ofList], hplain.1 hpieces⟩
  · rintro ⟨pieces', hcut', hplain'⟩
    cases hcut.unique hcut'
    have hpieces := hplain.2 hplain'
    rw [hpieces] at hcut
    apply String.toList_injective
    rw [String.toList_ofList, hcut.text, (cut_write ids).text]

end Spells

end Path

/-- The ids that the path of the record spells lead from the root over its parent to itself. -/
structure Record.Spells (r : Record) (ids : List ContextId) : Prop where
  path : Path.Spells r.path ids
  depth : ids.length = r.depth + 1
  first : ids.head? = some rootId
  last : ids.getLast? = some r.id
  parent : ids.length = 1 ∧ r.parent = none ∨
    ∃ front p, ids = front ++ [p, r.id] ∧ r.parent = some p

section Lineage

variable {r : Record} {ids : List ContextId}

theorem dropLast_getLast?_iff {own : ContextId} {parent : Option ContextId}
    (h : ids.getLast? = some own) : ids.dropLast.getLast? = parent ↔
      ids.length = 1 ∧ parent = none ∨ ∃ front p, ids = front ++ [p, own] ∧ parent = some p := by
  obtain ⟨before, rfl⟩ := List.getLast?_eq_some_iff.1 h
  constructor
  · rintro rfl
    rw [List.dropLast_concat]
    cases hbefore : before.getLast? with
    | none =>
      rw [List.getLast?_eq_none_iff] at hbefore
      subst hbefore
      exact .inl ⟨rfl, rfl⟩
    | some q =>
      obtain ⟨front, rfl⟩ := List.getLast?_eq_some_iff.1 hbefore
      exact .inr ⟨front, q, List.append_assoc .., rfl⟩
  · rintro (⟨hlength, rfl⟩ | ⟨front, p, hids, rfl⟩)
    · have hbefore : before = [] := by simpa using hlength
      subst hbefore
      rfl
    · have hids' : before ++ [own] = (front ++ [p]) ++ [own] := by simpa using hids
      rw [hids', List.dropLast_concat, List.getLast?_concat]

theorem Record.lineage_iff_spells : r.Lineage ids ↔ r.Spells ids := by
  constructor
  · rintro ⟨hpath, hfirst, hlast, hparent, hdepth⟩
    exact ⟨Path.read?_eq_some_iff.1 hpath, hdepth, hfirst, hlast,
      (dropLast_getLast?_iff hlast).1 hparent⟩
  · rintro ⟨hpath, hdepth, hfirst, hlast, hparent⟩
    exact ⟨Path.read?_eq_some_iff.2 hpath, hfirst, hlast,
      (dropLast_getLast?_iff hlast).2 hparent, hdepth⟩

end Lineage

namespace Context

variable {r : Record} {c : Context}

theorem spells (c : Context) : c.record.Spells c.ancestors :=
  Record.lineage_iff_spells.1 c.lineage

theorem exists_of_spells {ids : List ContextId} (h : r.Spells ids) :
    ∃ c, ofRecord r = .ok c ∧ c.ancestors = ids := by
  have hlineage := Record.lineage_iff_spells.2 h
  exact ⟨⟨r, ids, hlineage⟩, ofRecord_record ⟨r, ids, hlineage⟩, rfl⟩

/-- The valid records are those whose path spells the ids from the root to them, and these ids are
the ancestors. Any other record is refused with its id and its path. -/
theorem ofRecord_iff_spells (r : Record) :
    (∀ c, ofRecord r = .ok c ↔ c.record = r ∧ r.Spells c.ancestors) ∧
      ((∃ c, ofRecord r = .ok c) ↔ ∃ ids, r.Spells ids) ∧
      ∀ e, ofRecord r = .error e ↔ e = .corruptPath r.id r.path ∧ ¬∃ ids, r.Spells ids := by
  have hvalid : ∀ c, ofRecord r = .ok c ↔ c.record = r ∧ r.Spells c.ancestors := by
    intro c
    constructor
    · intro h
      have hrecord := record_of_ofRecord h
      exact ⟨hrecord, hrecord ▸ c.spells⟩
    · rintro ⟨rfl, -⟩
      exact ofRecord_record c
  have hexists : (∃ c, ofRecord r = .ok c) ↔ ∃ ids, r.Spells ids := by
    constructor
    · rintro ⟨c, h⟩
      exact ⟨c.ancestors, ((hvalid c).1 h).2⟩
    · rintro ⟨ids, h⟩
      obtain ⟨c, hc, -⟩ := exists_of_spells h
      exact ⟨c, hc⟩
  refine ⟨hvalid, hexists, fun e => ?_⟩
  rw [← hexists]
  cases hr : ofRecord r with
  | ok c => simp
  | error e' => simp [ofRecord_error hr, eq_comm]

/-- The path of a valid record is the one that is written for its ancestors exactly if it is plain.
The written path may stand in its place, and among records with plain paths the ancestors determine
the path. -/
theorem path_eq_write_iff (h : ofRecord r = .ok c) :
    (r.path = String.ofList (Path.write c.ancestors) ↔ Path.IsPlain r.path) ∧
      (∃ c', ofRecord { r with path := String.ofList (Path.write c.ancestors) } = .ok c' ∧
        c'.ancestors = c.ancestors) ∧
      ∀ r' c', ofRecord r' = .ok c' → Path.IsPlain r.path → Path.IsPlain r'.path →
        (c'.ancestors = c.ancestors ↔ r'.path = r.path) := by
  have hwritten : ∀ {r c}, ofRecord r = .ok c →
      (r.path = String.ofList (Path.write c.ancestors) ↔ Path.IsPlain r.path) := by
    intro r c h
    cases record_of_ofRecord h
    exact c.spells.path.eq_write_iff
  refine ⟨hwritten h, ?_, ?_⟩
  · cases record_of_ofRecord h
    obtain ⟨hpath, hdepth, hfirst, hlast, hparent⟩ := c.spells
    have hspells : Path.Spells (String.ofList (Path.write c.ancestors)) c.ancestors :=
      Path.read?_eq_some_iff.1 (Path.read?_write hpath.1)
    exact exists_of_spells ⟨hspells, hdepth, hfirst, hlast, hparent⟩
  · intro r' c' h' hplain hplain'
    have hpath := (hwritten h).2 hplain
    have hpath' := (hwritten h').2 hplain'
    cases record_of_ofRecord h
    cases record_of_ofRecord h'
    constructor
    · intro hancestors
      rw [hpath', hpath, hancestors]
    · intro hpaths
      have hread := c'.lineage.path
      rw [hpaths, c.lineage.path] at hread
      exact (Option.some.inj hread).symm

/-- A path with a plus and with leading zeros is valid. It is not the one that is written for its
ancestors, which would be valid, too, and which is the path of a note with the same ancestors. -/
theorem path_eq_write_iff_padded : ∃ (r note : Record) (c c' : Context), r.path = "+1/005/12/" ∧
    ofRecord r = .ok c ∧ c.ancestors = [1, 5, 12] ∧ ¬Path.IsPlain r.path ∧
      ofRecord { r with path := String.ofList (Path.write c.ancestors) } = .ok c' ∧
      note.path = "1/5/12/" ∧ c'.path = note.path := by
  let r : Record := ⟨12, some 5, "page", some 3, 2, "+1/005/12/"⟩
  let note : Record := ⟨12, some 5, "note", some 4, 2, "1/5/12/"⟩
  let c : Context := ⟨r, [1, 5, 12], by decide +kernel⟩
  let c'' : Context := ⟨note, [1, 5, 12], by decide +kernel⟩
  have hc : ofRecord r = .ok c := ofRecord_record c
  have hc'' : ofRecord note = .ok c'' := ofRecord_record c''
  obtain ⟨hplain, ⟨c', hc', hancestors⟩, -⟩ := path_eq_write_iff hc
  obtain ⟨hplain', -, hsame⟩ := path_eq_write_iff hc'
  have hne : r.path ≠ String.ofList (Path.write c.ancestors) := by decide +kernel
  have hwritten' := hplain'.1 (by rw [hancestors])
  have hwritten'' : Path.IsPlain note.path :=
    ⟨[['1'], ['5'], ['1', '2']], ⟨by decide, by decide⟩, by decide⟩
  have hpath : note.path = c'.path := by
    rw [path, record_of_ofRecord hc']
    exact (hsame note c'' hc'' hwritten' hwritten'').1 hancestors.symm
  exact ⟨r, note, c, c', rfl, hc, rfl, mt hplain.2 hne, hc', rfl, hpath.symm⟩

/-- Two valid records of one context, with the same ancestors, whose paths differ. -/
theorem path_spelled_twice : ∃ (r r' : Record) (c c' : Context), ofRecord r = .ok c ∧
    ofRecord r' = .ok c' ∧ c.ancestors = c'.ancestors ∧ r.path ≠ r'.path ∧
      r'.path ≠ String.ofList (Path.write c'.ancestors) := by
  let r : Record := ⟨5, some 1, "course", some 50, 1, "1/5/"⟩
  let r' : Record := { r with path := "1/05/" }
  let c : Context := ⟨r, [1, 5], by decide +kernel⟩
  let c' : Context := ⟨r', [1, 5], by decide +kernel⟩
  exact ⟨r, r', c, c', ofRecord_record c, ofRecord_record c', rfl, by decide, by decide +kernel⟩

end Context

end Clearance
