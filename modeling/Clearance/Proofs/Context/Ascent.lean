import Clearance.Proofs.Context.Rooted

/-! The way from a context up to the root, by the parents of the records. In a tree it exists, its
ids ascend, and it is what the path of the record says. -/
namespace Clearance

namespace ContextStore

/-- The parents from `id` up lead to a record without a parent. `l` are the ids on the way, the
last one reached first. -/
inductive Ascent (s : ContextStore) : ContextId → List ContextId → Prop
  | top {id : ContextId} {r : Record} : s.get id = some r → r.parent = none → Ascent s id [id]
  | step {id p : ContextId} {r : Record} {l : List ContextId} :
      s.get id = some r → r.parent = some p → Ascent s p l → Ascent s id (l ++ [id])

theorem Ascent.unique {s : ContextStore} {id : ContextId} {l l' : List ContextId}
    (h : s.Ascent id l) (h' : s.Ascent id l') : l = l' := by
  induction h generalizing l' with
  | top hr hp =>
    cases h' with
    | top => rfl
    | step hr' hp' =>
      cases hr.symm.trans hr'
      cases hp.symm.trans hp'
  | step hr hp _ ih =>
    cases h' with
    | top hr' hp' =>
      cases hr.symm.trans hr'
      cases hp.symm.trans hp'
    | step hr' hp' h' =>
      cases hr.symm.trans hr'
      cases hp.symm.trans hp'
      rw [ih h']

def ownersOf (s : ContextStore) (ids : List ContextId) : List Owner :=
  ids.filterMap fun id => (s.get id).bind Record.owner?

end ContextStore

theorem Path.write_concat (ids : List ContextId) (id : ContextId) :
    String.ofList (write (ids ++ [id])) = child (String.ofList (write ids)) id := by
  apply String.toList_injective
  simp [write, child, Id.text]

theorem Record.Lineage.child {p : Record} {ids : List ContextId} (h : p.Lineage ids)
    (hp : p.path = String.ofList (Path.write ids)) (w : Owner) (id : ContextId) :
    ((Draft.below p w).record id).Lineage (ids ++ [id]) where
  path := by
    show Path.read? (Path.child p.path id) = _
    rw [hp, ← Path.write_concat]
    exact Path.read?_write (by simp)
  first := by
    rw [List.head?_append, h.first]
    rfl
  last := List.getLast?_concat
  parent := by
    rw [List.dropLast_concat]
    exact h.last
  depth := by
    rw [List.length_append, h.depth]
    rfl

namespace ContextStore.Rooted

variable {allowed : Owner → Option Owner → Prop} {s : ContextStore} {id : ContextId} {r : Record}

/-- A record without an owner is the root. -/
theorem id_eq_rootId (h : Rooted allowed s) (hg : s.get id = some r) (hw : r.owner? = none) :
    id = rootId := by
  by_cases hid : id = rootId
  · exact hid
  · obtain ⟨p, w, -, -, -, rfl⟩ := h.placed hg hid
    cases hw

theorem owner?_root (h : Rooted allowed s) (hg : s.get rootId = some r) : r.owner? = none := by
  rw [h.root] at hg
  cases hg
  rfl

/-- Every record of a tree has a way up to the root, and its path is the record of that way. -/
theorem exists_ascent (h : Rooted allowed s) (hg : s.get id = some r) : ∃ l, s.Ascent id l ∧
    r.path = String.ofList (Path.write l) ∧ r.Lineage l ∧ l.Pairwise (· < ·) ∧ ∀ a ∈ l, a ≤ id := by
  -- the parent has a smaller number
  generalize hn : id.toInt.toNat = n
  induction n using Nat.strongRecOn generalizing id r with
  | ind n ih =>
    by_cases hid : id = rootId
    · subst hid
      cases h.root.symm.trans hg
      refine ⟨[rootId], .top h.root rfl, by decide, Context.root.lineage, ?_, ?_⟩
      · exact List.pairwise_singleton ..
      · intro a ha
        rw [List.mem_singleton.1 ha]
        exact Int64.le_refl _
    · obtain ⟨p, w, hp, hlt, -, rfl⟩ := h.placed hg hid
      have hlt' := Int64.lt_iff_toInt_lt.1 hlt
      have hpos := (h.numbered hp).2.1
      obtain ⟨l, hl, hpath, hlineage, hsorted, hle⟩ := ih _ (by omega) hp rfl
      have hbelow : ∀ a ∈ l, a < id := fun a ha => Int64.lt_of_le_of_lt (hle a ha) hlt
      refine ⟨l ++ [id], .step hg rfl hl, ?_, hlineage.child hpath w id, ?_, ?_⟩
      · rw [Path.write_concat, ← hpath]
        rfl
      · rw [List.pairwise_append]
        refine ⟨hsorted, List.pairwise_singleton .., fun a ha b hb => ?_⟩
        rw [List.mem_singleton.1 hb]
        exact hbelow a ha
      · intro a ha
        rcases List.mem_append.1 ha with ha | ha
        · exact Int64.le_of_lt (hbelow a ha)
        · rw [List.mem_singleton.1 ha]
          exact Int64.le_refl _

theorem exists_context (h : Rooted allowed s) (hg : s.get id = some r) :
    ∃ c, Context.ofRecord r = .ok c ∧ s.Ascent id c.ancestors ∧
      c.ancestors.head? = some rootId ∧ c.ancestors.Pairwise (· < ·) := by
  obtain ⟨l, hl, -, hlineage, hsorted, -⟩ := h.exists_ascent hg
  exact ⟨⟨r, l, hlineage⟩, Context.ofRecord_record ⟨r, l, hlineage⟩, hl, hlineage.first, hsorted⟩

end ContextStore.Rooted

/-- Each record but the root continues the path of its parent and has a greater id, and each is
valid, with the ids on its way to the root as its ancestors in ascending order. -/
structure ContextStore.MaterializedTree (s : ContextStore) : Prop where
  root : s.get rootId = some .root
  id : ∀ {id r}, s.get id = some r → r.id = id
  parent : ∀ {id r}, s.get id = some r → id ≠ rootId → ∃ p, s.get p.id = some p ∧
    r.parent = some p.id ∧ r.depth = p.depth + 1 ∧ p.id < r.id ∧
    r.path = p.path ++ Id.text r.id ++ "/"
  ancestors : ∀ {id r}, s.get id = some r → ∃ c, Context.ofRecord r = .ok c ∧
    s.Ascent id c.ancestors ∧ c.ancestors.head? = some rootId ∧ c.ancestors.Pairwise (· < ·)

theorem ContextStore.Rooted.materializedTree {allowed : Owner → Option Owner → Prop}
    {s : ContextStore} (h : s.Rooted allowed) : s.MaterializedTree where
  root := h.root
  id hg := (h.numbered hg).1
  parent hg hid := by
    obtain ⟨p, w, hp, hlt, -, rfl⟩ := h.placed hg hid
    exact ⟨p, hp, rfl, rfl, hlt, rfl⟩
  ancestors hg := h.exists_context hg

def Record.IsOf (r : Record) : Option Owner → Prop
  | some w => r.owner? = some w
  | none => r = .root

/-- The declared owners above an owner, as far as any is declared, and itself; the topmost first. -/
inductive DeclaredChain (declared : Owner → Option Owner) : Owner → List Owner → Prop
  | top {w : Owner} : declared w = none → DeclaredChain declared w [w]
  | under {w u : Owner} {l : List Owner} :
      declared w = some u → DeclaredChain declared u l → DeclaredChain declared w (l ++ [w])

theorem DeclaredChain.unique {declared : Owner → Option Owner} {w : Owner} {l l' : List Owner}
    (h : DeclaredChain declared w l) (h' : DeclaredChain declared w l') : l = l' := by
  induction h generalizing l' with
  | top hw =>
    cases h' with
    | top => rfl
    | under hw' => cases hw.symm.trans hw'
  | under hw _ ih =>
    cases h' with
    | top hw' => cases hw.symm.trans hw'
    | under hw' h' =>
      cases hw.symm.trans hw'
      rw [ih h']

/-- The contexts that are placed below the declared owner of each owner. -/
abbrev ContextStore.Mirrors (declared : Owner → Option Owner) : ContextStore → Prop :=
  ContextStore.Rooted fun w u => u = declared w

namespace ContextStore.Mirrors

variable {declared : Owner → Option Owner} {s : ContextStore} {id : ContextId} {r : Record}
  {w : Owner}

theorem parent_of (h : s.Mirrors declared) (hg : s.get id = some r) (hw : r.owner? = some w) :
    ∃ p, r.parent = some p.id ∧ s.get p.id = some p ∧ p.owner? = declared w := by
  have hid : id ≠ rootId := by
    rintro rfl
    rw [h.owner?_root hg] at hw
    cases hw
  obtain ⟨p, v, hp, -, hv, rfl⟩ := h.placed hg hid
  cases hw
  exact ⟨p, rfl, hp, hv⟩

theorem exists_parent (h : s.Mirrors declared) (hg : s.get id = some r)
    (hw : r.owner? = some w) :
    ∃ p, r.parent = some p.id ∧ s.get p.id = some p ∧ p.IsOf (declared w) := by
  obtain ⟨p, hparent, hp, howner⟩ := h.parent_of hg hw
  refine ⟨p, hparent, hp, ?_⟩
  cases hd : declared w with
  | some u => exact howner.trans hd
  | none =>
    have hid := h.id_eq_rootId hp (howner.trans hd)
    rw [hid, h.root] at hp
    exact (Option.some.inj hp).symm

/-- The owners on the way up from a context are the declared ones. -/
theorem declaredChain (h : s.Mirrors declared) {l : List ContextId} (hl : s.Ascent id l)
    (hg : s.get id = some r) (hw : r.owner? = some w) :
    DeclaredChain declared w (s.ownersOf l) := by
  induction hl generalizing r w with
  | top hr hp =>
    cases hr.symm.trans hg
    obtain ⟨p, hp', -, -⟩ := h.parent_of hg hw
    cases hp.symm.trans hp'
  | @step id q _ l hr hq hl ih =>
    cases hr.symm.trans hg
    obtain ⟨p, hp, hgp, howner⟩ := h.parent_of hg hw
    cases hq.symm.trans hp
    have hconcat : s.ownersOf (l ++ [id]) = s.ownersOf l ++ [w] := by
      simp [ownersOf, hg, hw]
    rw [hconcat]
    cases hd : declared w with
    | none =>
      -- the parent is the root, and its way up ends at once
      have hroot := h.id_eq_rootId hgp (howner.trans hd)
      have htop : s.Ascent rootId [rootId] := .top h.root rfl
      rw [hroot] at hl
      have hnone : s.ownersOf [rootId] = [] := by
        simp [ownersOf, h.root]
        rfl
      rw [hl.unique htop, hnone]
      exact .top hd
    | some u => exact .under hd (ih hgp (howner.trans hd))

/-- Two trees that mirror one declaration have the same owners above an owner that both store. -/
theorem exists_context (h : s.Mirrors declared) (hg : s.get id = some r)
    (hw : r.owner? = some w) :
    ∃ c, Context.ofRecord r = .ok c ∧ DeclaredChain declared w (s.ownersOf c.ancestors) := by
  obtain ⟨c, hc, hascent, -⟩ := Rooted.exists_context h hg
  exact ⟨c, hc, h.declaredChain hascent hg hw⟩

end ContextStore.Mirrors

end Clearance
