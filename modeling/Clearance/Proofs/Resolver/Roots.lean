import Clearance.Proofs.Context.Spelling
import Clearance.Proofs.Resolver.Descent

/-! What is at the root. Of a record only the two ends and the number of the ids on its path are
checked, so that a path may pass an id twice. Where it does not, the root is the one context without
a parent; where it comes back to the root, the root has a parent. -/
namespace Clearance

theorem Atlas.runFrom_getContext (id : ContextId) (a : Atlas) :
    (ask (World.getContext id)).runFrom a =
      (match a.world.disruption.refusal .getContext (a.world.callCount .getContext) with
        | some e => .error (.storage e)
        | none => .ok (a.world.contexts.get id),
      { a with world := a.world.noting .getContext }) := by
  rw [ask, onWorld, Act.runFrom_on, Act.runFrom_mapError, World.getContext, World.runFrom_request]
  cases a.world.disruption.refusal .getContext (a.world.callCount .getContext) <;> rfl

namespace Resolver

/-- The root is the one that the store has, unless the request for it is refused. -/
theorem root_cases (a : Atlas) : (root.runFrom a).1 = a.world.contexts.rootFor a.root ∨
    ∃ e, (root.runFrom a).1 = .error (.storage e) := by
  rw [root, Act.runFrom_bind_ok (Act.runFrom_get a)]
  cases hroot : a.root with
  | some c => exact .inl rfl
  | none =>
    have hask := a.runFrom_getContext rootId
    cases hrefusal : a.world.disruption.refusal .getContext (a.world.callCount .getContext) with
    | some e =>
      rw [hrefusal] at hask
      refine .inr ⟨e, ?_⟩
      simp only [Act.runFrom_bind_error hask]
    | none =>
      rw [hrefusal] at hask
      left
      simp only [Act.runFrom_bind_ok hask, ContextStore.rootFor]
      cases a.world.contexts.get rootId with
      | none => rfl
      | some r =>
        simp only [Act.runFrom_bind]
        cases hr : Context.ofRecord r with
        | ok c => rfl
        | error e => rfl

end Resolver

namespace Context

variable {r : Record} {c : Context}

section Ends

theorem length_ancestors (c : Context) : c.ancestors.length = 1 ↔ c.ancestors = [rootId] := by
  constructor
  · intro h
    obtain ⟨id, hid⟩ := List.length_eq_one_iff.1 h
    have hfirst := c.lineage.first
    rw [hid] at hfirst ⊢
    rw [List.head?_cons] at hfirst
    rw [Option.some.inj hfirst]
  · intro h
    rw [h]
    rfl

theorem depth_eq_zero_iff (c : Context) : c.record.depth = 0 ↔ c.ancestors = [rootId] := by
  rw [← c.length_ancestors, c.lineage.depth]
  omega

theorem parent_eq_none_iff (c : Context) : c.record.parent = none ↔ c.ancestors = [rootId] := by
  rw [← c.length_ancestors]
  rcases c.spells.parent with ⟨hlength, hparent⟩ | ⟨front, p, hids, hparent⟩
  · simp [hlength, hparent]
  · simp [hids, hparent]

/-- A context is at the root if there is nothing above it or if its path comes back to the root. -/
theorem isRoot_iff (c : Context) : c.isRoot = true ↔
    c.ancestors = [rootId] ∨ ∃ between, c.ancestors = rootId :: between ++ [rootId] := by
  obtain ⟨before, hids⟩ := List.getLast?_eq_some_iff.1 c.lineage.last
  have hfirst := c.lineage.first
  have hroot : c.isRoot = true ↔ c.record.id = rootId := decide_eq_true_iff
  rw [hroot, hids]
  rw [hids] at hfirst
  cases before with
  | nil => simp
  | cons a before =>
    have ha : a = rootId := Option.some.inj hfirst
    subst ha
    simp

theorem path_eq_root_iff (c : Context) :
    c.path = Record.root.path ↔ c.ancestors = [rootId] ∧ Path.IsPlain c.path := by
  have hwritten : Record.root.path = String.ofList (Path.write [rootId]) := by decide +kernel
  have hspells : Path.Spells c.path c.ancestors := c.spells.path
  rw [hwritten]
  constructor
  · intro hpath
    have hread : Path.read? c.path = some [rootId] := by
      rw [hpath]
      exact Path.read?_write (List.cons_ne_nil _ _)
    have hids : c.ancestors = [rootId] := Option.some.inj (c.lineage.path.symm.trans hread)
    rw [hids] at hspells
    exact ⟨hids, hspells.eq_write_iff.1 hpath⟩
  · rintro ⟨hids, hplain⟩
    rw [hids] at hspells
    exact hspells.eq_write_iff.2 hplain

end Ends

/-- A valid record is at depth zero, without a parent, exactly if its path has a single id, and it
has the path of the root if this id is spelled plainly. It is the root, too, if its path comes back
to the root, and what is stored as the root is the root even so. -/
theorem isRoot_iff_comesBack (h : ofRecord r = .ok c) :
    (r.depth = 0 ↔ c.ancestors = [rootId]) ∧ (r.parent = none ↔ c.ancestors = [rootId]) ∧
      (r.path = Record.root.path ↔ c.ancestors = [rootId] ∧ Path.IsPlain r.path) ∧
      (c.isRoot = true ↔ c.ancestors = [rootId] ∨
        ∃ between, c.ancestors = rootId :: between ++ [rootId]) ∧
      (c.ancestors.Nodup → (c.isRoot = true ↔ c.ancestors = [rootId])) ∧
      ∀ a : Atlas, a.root = none → a.world.contexts.get rootId = some r →
        (Resolver.root.runFrom a).1 = .ok c ∨
          ∃ e, (Resolver.root.runFrom a).1 = .error (.storage e) := by
  cases record_of_ofRecord h
  have hdistinct : c.ancestors.Nodup → (c.isRoot = true ↔ c.ancestors = [rootId]) := by
    intro hnodup
    rw [isRoot_iff, or_iff_left]
    rintro ⟨between, hids⟩
    rw [hids] at hnodup
    simp at hnodup
  refine ⟨c.depth_eq_zero_iff, c.parent_eq_none_iff, c.path_eq_root_iff, c.isRoot_iff,
    hdistinct, ?_⟩
  intro a hroot hget
  have htop : a.world.contexts.rootFor a.root = .ok c := by
    rw [hroot, ContextStore.rootFor, hget]
    exact h
  rw [← htop]
  exact Resolver.root_cases a

/-- Over an office back to the root: the root has a parent and is at depth two. -/
theorem isRoot_iff_comesBack_office : ∃ (r : Record) (c : Context) (a : Atlas), r.path = "1/5/1/" ∧
    ofRecord r = .ok c ∧ r.parent = some 5 ∧ r.depth = 2 ∧ c.isRoot = true ∧ ¬c.ancestors.Nodup ∧
      a.root = none ∧ a.world.contexts.get rootId = some r ∧
      ((Resolver.root.runFrom a).1 = .ok c ∨
        ∃ e, (Resolver.root.runFrom a).1 = .error (.storage e)) := by
  let r : Record := ⟨1, some 5, "system", none, 2, "1/5/1/"⟩
  let c : Context := ⟨r, [1, 5, 1], by decide +kernel⟩
  let a : Atlas := ⟨.ofContexts (ContextStore.new.insert r), none⟩
  have hget : a.world.contexts.get rootId = some r := by decide +kernel
  obtain ⟨-, -, -, hroot, hdistinct, hread⟩ := isRoot_iff_comesBack (ofRecord_record c)
  have hisRoot : c.isRoot = true := hroot.2 (.inr ⟨[5], rfl⟩)
  have hnodup : ¬c.ancestors.Nodup := by
    intro hnodup
    have hsingle := (hdistinct hnodup).1 hisRoot
    cases hsingle
  exact ⟨r, c, a, rfl, ofRecord_record c, rfl, rfl, hisRoot, hnodup, rfl, hget, hread a rfl hget⟩

/-- A valid record that is its own parent. It is the root at depth one, and where it is stored it is
what a resolver gets for the root. -/
theorem root_below_itself : ∃ (r : Record) (c : Context) (a : Atlas), r.path = "1/1/" ∧
    ofRecord r = .ok c ∧ ¬c.ancestors.Nodup ∧ c.isRoot = true ∧ c.record.depth = 1 ∧
      c.record.parent = some c.id ∧ c.path ≠ Record.root.path ∧
      a.world.contexts = ContextStore.withoutRoot.insert r ∧
      (Resolver.root.runFrom a).1 = .ok c := by
  let r : Record := ⟨1, some 1, "system", none, 1, "1/1/"⟩
  let c : Context := ⟨r, [1, 1], by decide +kernel⟩
  let a : Atlas := ⟨.ofContexts (ContextStore.withoutRoot.insert r), none⟩
  exact ⟨r, c, a, rfl, ofRecord_record c, by decide, rfl, rfl, rfl, by decide, rfl,
    by decide +kernel⟩

end Context

end Clearance
